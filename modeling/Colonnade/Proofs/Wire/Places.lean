/-
What the reader accepts in the place of what the writer writes. A payload is
laid out place by place: almost every place is fixed to the one byte that
the writer puts there, a truth value may be any byte that is zero or not as
the writer's is, and of the flags of a declaration only those are heeded
that still say something. `Fits` compares bytes with places one by one.

Whatever fits the places of a value is read as that value. The bytes of the
writer fit, so this is more than reading back; the proofs go back to
`Reads` wherever a place is fixed, and only truth values and flags are read
anew.

Chain: `Wire.Spelling` has the converse, that nothing else is read so.
-/
import Colonnade.Proofs.Wire.Framing
import Mathlib.Data.List.Forall2

namespace Colonnade.Wire

-- ============================================================ places

/-- One byte of what the writer writes. -/
inductive Place where
  /-- a byte that means itself -/
  | fixed (b : UInt8)
  /-- the content of a truth value -/
  | truth (b : Bool)
  /-- the flags of a declaration -/
  | flags (s : ColumnSpec)

namespace Place

/-- What the writer puts in the place. -/
def written : Place → UInt8
  | fixed b => b
  | truth b => if b then 1 else 0
  | flags s => flagsOf s

/-- The flags that the reader goes by. A column of link lists is one of
lists whether its flag says so or not. -/
def heeded (t : ColumnType) : List UInt8 :=
  if t = .linkList then [nullableFlag, targetFlag]
  else [nullableFlag, listFlag, targetFlag]

/-- The bytes that may stand in the place. -/
def Admits : Place → UInt8 → Prop
  | fixed b, c => c = b
  | truth b, c => c = 0 ↔ b = false
  | flags s, c =>
    ∀ flag ∈ heeded s.type, (c &&& flag != 0) = (flagsOf s &&& flag != 0)

instance : (q : Place) → (c : UInt8) → Decidable (q.Admits c)
  | fixed b, c => inferInstanceAs (Decidable (c = b))
  | truth b, c => inferInstanceAs (Decidable (c = 0 ↔ b = false))
  | flags s, _ => List.decidableBAll _ (heeded s.type)

/-- Every place admits what the encoder writes there. -/
theorem admits_written (q : Place) : q.Admits q.written := by
  cases q with
  | fixed b => rfl
  | truth b => cases b <;> decide
  | flags s => exact fun _ _ => rfl

/-- Only a truth and the flags of a declaration have more than one
spelling. -/
theorem loose_of_ne {q : Place} {c : UInt8} (h : q.Admits c)
    (hne : c ≠ q.written) : q = .truth true ∨ ∃ s, q = .flags s := by
  cases q with
  | fixed b => exact absurd h hne
  | truth b =>
      cases b with
      | false => exact absurd (h.2 rfl) hne
      | true => exact .inl rfl
  | flags s => exact .inr ⟨s, rfl⟩

end Place

/-- The places of bytes that all mean themselves. -/
def fixed (bs : Bytes) : List Place := bs.map .fixed

/-- The bytes fit the places, one by one. -/
def Fits (places : List Place) (bs : Bytes) : Prop :=
  List.Forall₂ Place.Admits places bs

instance (places : List Place) (bs : Bytes) :
    Decidable (Fits places bs) :=
  inferInstanceAs (Decidable (List.Forall₂ _ _ _))

namespace Fits

variable {ps qs : List Place} {bs cs : Bytes}

theorem written (ps : List Place) : Fits ps (ps.map Place.written) :=
  List.forall₂_map_right_iff.2
    (List.forall₂_same.2 fun q _ => q.admits_written)

/-- What fits two lists of places fits them one behind the other. -/
theorem append (hps : Fits ps bs) (hqs : Fits qs cs) :
    Fits (ps ++ qs) (bs ++ cs) :=
  List.rel_append hps hqs

/-- What fits two runs of places is what fits the first before what fits
the second. -/
theorem of_append (h : Fits (ps ++ qs) bs) :
    ∃ front back, bs = front ++ back ∧ Fits ps front ∧ Fits qs back := by
  induction ps generalizing bs with
  | nil => exact ⟨[], bs, rfl, .nil, h⟩
  | cons p ps ih =>
      obtain ⟨b, bs, hb, hbs, rfl⟩ := List.forall₂_cons_left_iff.1 h
      obtain ⟨front, back, rfl, hfront, hback⟩ := ih hbs
      exact ⟨b :: front, back, rfl, .cons hb hfront, hback⟩

/-- Fixed places fit the bytes that are fixed, and no others. -/
theorem fixed_iff : Fits (fixed cs) bs ↔ bs = cs := by
  unfold Fits fixed
  rw [List.forall₂_map_left_iff]
  show List.Forall₂ (fun c b => b = c) cs bs ↔ _
  simp only [eq_comm (a := (_ : UInt8)), List.forall₂_eq_eq_eq]
  exact eq_comm

/-- What fits fixed places and more is the fixed bytes and more. -/
theorem fixed_append_iff :
    Fits (fixed cs ++ ps) bs ↔ ∃ back, bs = cs ++ back ∧ Fits ps back := by
  constructor
  · intro h
    obtain ⟨front, back, rfl, hfront, hback⟩ := h.of_append
    obtain rfl := fixed_iff.1 hfront
    exact ⟨back, rfl, hback⟩
  · rintro ⟨back, rfl, hback⟩
    exact (fixed_iff.2 rfl).append hback

/-- Bytes that differ from the writer's do so where there is another
spelling. -/
theorem loose_of_ne (h : Fits ps bs) {n : Nat}
    (hne : bs[n]? ≠ (ps.map Place.written)[n]?) :
    ps[n]? = some (.truth true) ∨ ∃ s, ps[n]? = some (.flags s) := by
  induction h generalizing n with
  | nil => exact absurd rfl hne
  | cons hadmits _ ih =>
      cases n with
      | zero =>
          have := Place.loose_of_ne hadmits fun heq => hne (by simp [heq])
          simpa using this
      | succ n => exact ih (by simpa using hne)

end Fits

-- ================================================ what is laid out

def specPlaces (s : ColumnSpec) : List Place :=
  fixed (textBytes s.name ++ [typeByte s.type]) ++
    .flags s :: fixed (s.target.elim [] tableBytes)

def valuePlaces : Value → List Place
  | .bool b => [.fixed (typeByte .bool), .truth b]
  | v => fixed (valueBytes v)

/-- The places of the fields of an instruction: only a declaration or a
value can have places that are not fixed. -/
def fieldPlaces : Instruction → List Place
  | .addColumn t c spec =>
    fixed (tableBytes t ++ columnBytes c) ++ specPlaces spec
  | .set t k c v => fixed (cellBytes t k c) ++ valuePlaces v
  | .listInsert t k c i v =>
    fixed (cellBytes t k c ++ u64Bytes i) ++ valuePlaces v
  | .listSet t k c i v =>
    fixed (cellBytes t k c ++ u64Bytes i) ++ valuePlaces v
  | i => fixed (fieldBytes i)

def instructionPlaces (i : Instruction) : List Place :=
  .fixed (opcode i) :: fieldPlaces i

/-- The places of the payload of a record. -/
def payloadPlaces (r : CommitRecord) : List Place :=
  fixed (u64Bytes r.version.raw ++ leBytes 4 r.instructions.length) ++
    r.instructions.flatMap instructionPlaces

@[simp] theorem written_fixed (bs : Bytes) :
    (fixed bs).map Place.written = bs := by
  unfold fixed
  rw [List.map_map]
  exact List.map_id bs

theorem written_specPlaces (s : ColumnSpec) :
    (specPlaces s).map Place.written = specBytes s := by
  unfold specPlaces specBytes
  cases s.target <;> simp [Place.written]

theorem written_valuePlaces (v : Value) :
    (valuePlaces v).map Place.written = valueBytes v := by
  cases v with
  | bool b => rfl
  | _ => exact written_fixed _

/-- In its places an instruction is written as its bytes. -/
theorem written_instructionPlaces (i : Instruction) :
    (instructionPlaces i).map Place.written = instructionBytes i := by
  have hfields : (fieldPlaces i).map Place.written = fieldBytes i := by
    cases i <;> simp [fieldPlaces, fieldBytes, written_specPlaces,
      written_valuePlaces]
  unfold instructionPlaces instructionBytes
  rw [List.map_cons, hfields]
  rfl

/-- The places of a payload are those of what is written. -/
theorem written_payloadPlaces (r : CommitRecord) :
    (payloadPlaces r).map Place.written = payloadBytes r := by
  unfold payloadPlaces payloadBytes
  rw [List.map_append, written_fixed, List.map_flatMap]
  simp only [written_instructionPlaces]

-- ==================================================== what is read so

namespace Reads

/-- Flags that agree where they are heeded make the same declaration. -/
theorem make_eq_of_heeded (name : String) {t : ColumnType} {c d : UInt8}
    (h : ∀ flag ∈ Place.heeded t, (c &&& flag != 0) = (d &&& flag != 0)) :
    ColumnSpec.make name t (c &&& nullableFlag != 0) (c &&& listFlag != 0)
        = ColumnSpec.make name t (d &&& nullableFlag != 0)
          (d &&& listFlag != 0)
      ∧ (c &&& targetFlag != 0) = (d &&& targetFlag != 0) := by
  unfold Place.heeded at h
  by_cases ht : t = .linkList
  · rw [if_pos ht] at h
    refine ⟨?_, h targetFlag (by simp)⟩
    subst ht
    unfold ColumnSpec.make
    simp only [h nullableFlag (by simp), beq_self_eq_true, Bool.or_true]
  · rw [if_neg ht] at h
    refine ⟨?_, h targetFlag (by simp)⟩
    rw [h nullableFlag (by simp), h listFlag (by simp)]

/-- A declaration is read from what fits its places. -/
theorem spec_of_fits {s : ColumnSpec} {bs : Bytes}
    (hfits : Fits (specPlaces s) bs) (h : bs.length ≤ maxSize) :
    Reads Reader.spec bs s := by
  obtain ⟨_, rfl, hloose⟩ := Fits.fixed_append_iff.1 hfits
  obtain ⟨c, back, hflags, hback, rfl⟩ :=
    List.forall₂_cons_left_iff.1 hloose
  obtain rfl := Fits.fixed_iff.1 hback
  have hwritten : specBytes s = textBytes s.name ++ [typeByte s.type]
      ++ flagsOf s :: s.target.elim [] tableBytes := by
    unfold specBytes
    cases s.target <;> simp
  have hname : (textBytes s.name).length ≤ maxSize := by
    simp only [List.length_append] at h
    omega
  have hlength : (specBytes s).length ≤ maxSize := by
    rw [hwritten]
    simpa using h
  -- up to the flags the two are read alike, and after them as well
  have hsame : ∀ rest,
      Reader.spec.run (textBytes s.name ++ ([typeByte s.type]
        ++ ([c] ++ rest)))
      = Reader.spec.run (textBytes s.name ++ ([typeByte s.type]
        ++ ([flagsOf s] ++ rest))) := by
    intro rest
    unfold Reader.spec
    simp only [(Reads.text hname).run_bind,
      (Reads.columnType s.type).run_bind, (Reads.u8 _).run_bind]
    obtain ⟨hmake, htarget⟩ := make_eq_of_heeded s.name hflags
    rw [hmake, htarget]
  intro rest
  have hread := Reads.spec hlength rest
  rw [hwritten] at hread
  simpa using (hsame (s.target.elim [] tableBytes ++ rest)).trans
    (by simpa using hread)

/-- A value is read from what fits its places, if its key can be read. -/
theorem value_of_fits {v : Value} {bs : Bytes}
    (hkey : ∀ k, v = .link k → 0 ≤ k.raw)
    (hfits : Fits (valuePlaces v) bs) (h : bs.length ≤ maxSize) :
    Reads Reader.value bs v := by
  cases v with
  | bool b =>
      obtain ⟨_, cs, rfl, hcs, rfl⟩ := List.forall₂_cons_left_iff.1 hfits
      obtain ⟨c, ds, hc, hds, rfl⟩ := List.forall₂_cons_left_iff.1 hcs
      obtain rfl := List.forall₂_nil_left_iff.1 hds
      have hb : (c != 0) = b := by
        cases b with
        | false => simpa using hc.2 rfl
        | true => simpa using fun h0 => absurd (hc.1 h0) (by decide)
      have := (Reads.u8 c).map (f := fun c => Value.bool (c != 0))
      rw [hb] at this
      exact tagged this
  | _ =>
      obtain rfl := Fits.fixed_iff.1 hfits
      exact Reads.value hkey h

/-- The fields of an instruction are read from what fits their places. -/
theorem fields_of_fits {i : Instruction} (hkeys : i.KeysNonneg) {bs : Bytes}
    (hfits : Fits (fieldPlaces i) bs) (h : bs.length ≤ maxSize) :
    Reads (Reader.fields (opcode i)) bs i := by
  cases i with
  | addColumn t c spec =>
      obtain ⟨back, rfl, hback⟩ := Fits.fixed_append_iff.1 hfits
      simp only [List.length_append] at h
      simp only [Reader.fields, opcode, List.append_assoc]
      exact (Reads.table t).bind ((Reads.column c).bind
        (spec_of_fits hback (by omega)).bind_pure)
  | set t k c v =>
      obtain ⟨back, rfl, hback⟩ := Fits.fixed_append_iff.1 hfits
      simp only [List.length_append] at h
      simp only [Reader.fields, opcode]
      refine cell (hkeys.key k rfl)
        (value_of_fits ?_ hback (by omega)).bind_pure
      rintro l rfl
      exact hkeys.link l rfl
  | listInsert t k c index v =>
      obtain ⟨back, rfl, hback⟩ := Fits.fixed_append_iff.1 hfits
      simp only [List.length_append] at h
      simp only [Reader.fields, opcode, List.append_assoc]
      refine cell (hkeys.key k rfl) ((Reads.u64 index).bind
        (value_of_fits ?_ hback (by omega)).bind_pure)
      rintro l rfl
      exact hkeys.link l rfl
  | listSet t k c index v =>
      obtain ⟨back, rfl, hback⟩ := Fits.fixed_append_iff.1 hfits
      simp only [List.length_append] at h
      simp only [Reader.fields, opcode, List.append_assoc]
      refine cell (hkeys.key k rfl) ((Reads.u64 index).bind
        (value_of_fits ?_ hback (by omega)).bind_pure)
      rintro l rfl
      exact hkeys.link l rfl
  | _ =>
      obtain rfl := Fits.fixed_iff.1 hfits
      exact Reads.fields hkeys h

/-- An instruction is read from what fits its places, if its keys can be read.
-/
theorem instruction_of_fits {i : Instruction} (hkeys : i.KeysNonneg)
    {bs : Bytes} (hfits : Fits (instructionPlaces i) bs)
    (h : bs.length ≤ maxSize) : Reads Reader.instruction bs i := by
  obtain ⟨_, cs, rfl, hcs, rfl⟩ := List.forall₂_cons_left_iff.1 hfits
  refine (Reads.u8 (opcode i)).bind (fields_of_fits hkeys hcs ?_)
  rw [List.length_cons] at h
  omega

/-- Instructions are read from what fits their places. -/
theorem instructions_of_fits {is : List Instruction}
    (hkeys : ∀ i ∈ is, i.KeysNonneg) {bs : Bytes}
    (hfits : Fits (is.flatMap instructionPlaces) bs)
    (h : bs.length ≤ maxSize) :
    Reads (Reader.instructions is.length) bs is := by
  induction is generalizing bs with
  | nil =>
      obtain rfl := List.forall₂_nil_left_iff.1 hfits
      exact Reads.pure []
  | cons i is ih =>
      rw [List.flatMap_cons] at hfits
      obtain ⟨front, back, rfl, hfront, hback⟩ := hfits.of_append
      rw [List.length_append] at h
      obtain ⟨hi, his⟩ := List.forall_mem_cons.1 hkeys
      exact (instruction_of_fits hi hfront (by omega)).bind
        (Reads.bind_pure (ih his hback (by omega)))

end Reads

end Colonnade.Wire
