/-
What the reader gives, whatever it was given to read. `Yields rd P` says
that every outcome of a reader has the property; like `Reads` it is closed
under sequencing, but it asks nothing of the bytes.

It is put to one use. An object key goes through `Reader.object`, which
refuses negative ones, so no record that was ever read names one. This is
the premise under which a record can be written and read back, so a record
that was read once can be read again.

Chain: `History.Replayed` uses it for the records of a log that is opened.
-/
import Colonnade.Proofs.Wire.Framing

namespace Colonnade.Wire

variable {α β : Type}

/-- Whatever the reader gives has the property. -/
def Yields (rd : Reader α) (P : α → Prop) : Prop :=
  ∀ bs a rest, rd.run bs = .ok (a, rest) → P a

namespace Yields

variable {P : α → Prop} {Q : β → Prop}

theorem any (rd : Reader α) : Yields rd fun _ => True :=
  fun _ _ _ _ => trivial

theorem pure {a : α} (h : P a) : Yields (Pure.pure a) P := by
  intro bs b rest hrun
  cases hrun
  exact h

theorem fail (what : Corruption) : Yields (Reader.fail what) P := nofun

theorem bind {x : Reader α} {f : α → Reader β} (hx : Yields x P)
    (hf : ∀ a, P a → Yields (f a) Q) : Yields (x >>= f) Q := by
  intro bs b rest hrun
  obtain ⟨a, mid, hxrun, hfrun⟩ := run_bind_eq_ok.1 hrun
  exact hf a (hx bs a mid hxrun) mid b rest hfrun

/-- A step whose outcome does not matter. -/
theorem after {x : Reader α} {f : α → Reader β}
    (hf : ∀ a, Yields (f a) Q) : Yields (x >>= f) Q :=
  (any x).bind fun a _ => hf a

theorem map {x : Reader α} {f : α → β} (hx : Yields x fun a => Q (f a)) :
    Yields (f <$> x) Q := by
  intro bs b rest hrun
  obtain ⟨a, hxrun, rfl⟩ := run_map_eq_ok.1 hrun
  exact hx bs a rest hxrun

/-- Mapping onto values of another kind. -/
theorem map_any {x : Reader α} {f : α → β} (h : ∀ a, Q (f a)) :
    Yields (f <$> x) Q :=
  map fun _ a _ _ => h a

end Yields

-- ============================================================= keys

theorem yields_object : Yields Reader.object fun k => 0 ≤ k.raw := by
  refine .after fun raw => ?_
  unfold ObjectKey.ofRaw?
  by_cases hraw : 0 ≤ raw
  · rw [if_pos hraw]
    exact .pure hraw
  · rw [if_neg hraw]
    exact .fail _

theorem yields_value :
    Yields Reader.value fun v => ∀ k, v = .link k → 0 ≤ k.raw := by
  refine .after fun tag => ?_
  split
  · exact .pure nofun
  split
  next t _ =>
    cases t with
    | link =>
        refine .map (fun bs k rest h l hl => ?_)
        cases hl
        exact yields_object bs k rest h
    | linkList => exact .fail _
    | _ => exact .map_any nofun
  · exact .fail _

/-- The cell that an instruction writes to is named by a key that was
read. -/
theorem yields_cell {f : TableKey → ObjectKey → ColumnKey → Reader α}
    {P : α → Prop} (h : ∀ t k c, 0 ≤ k.raw → Yields (f t k c) P) :
    Yields (do f (← Reader.table) (← Reader.object) (← Reader.column)) P :=
  .after fun t => yields_object.bind fun k hk => .after fun c => h t k c hk

theorem yields_fields (op : UInt8) :
    Yields (Reader.fields op) Instruction.KeysNonneg := by
  have hnone {i : Instruction} (hkey : i.parts.key = none)
      (hvalue : i.parts.value = none) : i.KeysNonneg :=
    ⟨fun k hk => by simp [hkey] at hk, fun k hk => by simp [hvalue] at hk⟩
  have hone {i : Instruction} {k : ObjectKey} (hk : 0 ≤ k.raw)
      (hkey : i.parts.key = some k) (hvalue : i.parts.value = none) :
      i.KeysNonneg := by
    refine ⟨fun l hl => ?_, fun l hl => by simp [hvalue] at hl⟩
    rw [hkey] at hl
    exact Option.some.inj hl ▸ hk
  have hboth {i : Instruction} {k : ObjectKey} {v : Value} (hk : 0 ≤ k.raw)
      (hv : ∀ l, v = .link l → 0 ≤ l.raw) (hkey : i.parts.key = some k)
      (hvalue : i.parts.value = some v) : i.KeysNonneg := by
    refine ⟨fun l hl => ?_, fun l hl => ?_⟩
    · rw [hkey] at hl
      exact Option.some.inj hl ▸ hk
    · rw [hvalue] at hl
      exact hv l (Option.some.inj hl)
  unfold Reader.fields
  split
  · exact .after fun t => .after fun name => .pure (hnone rfl rfl)
  · exact .after fun t => .pure (hnone rfl rfl)
  · exact .after fun t => .after fun c => .after fun spec =>
      .pure (hnone rfl rfl)
  · exact .after fun t => .after fun c => .pure (hnone rfl rfl)
  · exact .after fun t => yields_object.bind fun k hk =>
      .pure (hone hk rfl rfl)
  · exact .after fun t => yields_object.bind fun k hk =>
      .pure (hone hk rfl rfl)
  · exact yields_cell fun t k c hk => yields_value.bind fun v hv =>
      .pure (hboth hk hv rfl rfl)
  · exact yields_cell fun t k c hk => .after fun index =>
      yields_value.bind fun v hv => .pure (hboth hk hv rfl rfl)
  · exact yields_cell fun t k c hk => .after fun index =>
      yields_value.bind fun v hv => .pure (hboth hk hv rfl rfl)
  · exact yields_cell fun t k c hk => .after fun index =>
      .pure (hone hk rfl rfl)
  · exact yields_cell fun t k c hk => .pure (hone hk rfl rfl)
  · exact .fail _

theorem yields_instructions (n : Nat) :
    Yields (Reader.instructions n) fun is => ∀ i ∈ is, i.KeysNonneg := by
  induction n with
  | zero => exact .pure nofun
  | succ n ih =>
      unfold Reader.instructions
      have hfirst : Yields Reader.instruction Instruction.KeysNonneg :=
        .after yields_fields
      refine hfirst.bind fun i hi => ih.bind fun is his => .pure ?_
      exact List.forall_mem_cons.2 ⟨hi, his⟩

/-- A record that was decoded has no negative object keys. -/
theorem keysNonneg_of_decodePayload {payload : Bytes} {r : CommitRecord}
    (h : decodePayload payload = .ok r) :
    ∀ i ∈ r.instructions, i.KeysNonneg := by
  have hrecord : Yields Reader.record fun r =>
      ∀ i ∈ r.instructions, i.KeysNonneg := by
    refine .after fun version => .after fun count => ?_
    refine (yields_instructions _).bind fun is his => .after fun left => ?_
    split
    · exact .after fun _ => .pure his
    · exact .pure his
  obtain ⟨rest, hrun⟩ := decodePayload_eq_ok.1 h
  exact hrecord payload r rest hrun

theorem IsFrame.keysNonneg {data : Bytes} {h : Header} {r : CommitRecord}
    (hframe : IsFrame data h r) : ∀ i ∈ r.instructions, i.KeysNonneg := by
  obtain ⟨payload, -, hdecode⟩ := hframe.decode
  exact keysNonneg_of_decodePayload hdecode

end Colonnade.Wire
