/-
What instructions come to on balance. Of the tables and objects that are
there afterwards, each was there before or was made by one of them, and none
was taken away by any (`balance`). In which order they were carried out does
not matter, for a key is never given out again: what was taken away has a
spent key, and nothing with a spent key is made.

So instructions leave the tables and objects as they were exactly if each
that they made they took away again, and nothing else (`unchanged_iff`).

Chain: `Snapshot.Identity` has the spent keys; `Engine.Lookups` compares what
a transaction finds before and after its changes.
-/
import Colonnade.Proofs.Snapshot.Origins
import Mathlib.Data.List.Induction

namespace Colonnade

/-- Whether something is found by name or key from outside its table. -/
def Entity.Listed : Entity → Prop
  | .column _ _ _ => False
  | _ => True

/-- Whether an instruction takes a table or an object away. -/
def Instruction.Takes : Instruction → Entity → Prop
  | .removeTable k, .table key _ => key = k
  | .removeTable k, .object table _ => table = k
  | .removeObject k o, .object table key => table = k ∧ key = o
  | _, _ => False

namespace Snapshot

variable {limits : Limits} {i : Instruction} {s s' : Snapshot}
  {is js : List Instruction} {x : Entity}

-- ======================================================== one instruction

/-- What an instruction leaves of a table: its name, and its objects but for
one. -/
structure Leaves (i : Instruction) (k : TableKey) (t t' : Table) : Prop where
  name_eq : t'.name = t.name
  contains_iff : ∀ key, t'.contains key = true
    ↔ (t.contains key = true ∨ i = .createObject k key)
      ∧ i ≠ .removeObject k key

/-- Instructions about something else leave the objects alone. -/
theorem Leaves.of_rows {k : TableKey} {t t' : Table}
    (hname : t'.name = t.name) (hrows : t'.rows = t.rows)
    (hcreate : ∀ key, i ≠ .createObject k key)
    (hremove : ∀ key, i ≠ .removeObject k key) : Leaves i k t t' := by
  refine ⟨hname, fun key => ?_⟩
  simp [Table.contains, hrows, hcreate key, hremove key]

/-- A table that is not removed stays. -/
theorem Applied.table_left (h : Applied limits s i s') (hs : s.Keyed)
    {k : TableKey} {t : Table} (ht : s.table? k = some t)
    (hkept : i ≠ .removeTable k) :
    ∃ t', s'.table? k = some t' ∧ Leaves i k t t' := by
  -- most instructions replace one table, or store into one
  have hwith {table : TableKey} {t₀ u : Table}
      (ht₀ : s.table? table = some t₀)
      (hsame : table = k → Leaves i k t₀ u)
      (hother : table ≠ k → Leaves i k t t) :
      ∃ t', (s.withTable table u).table? k = some t' ∧ Leaves i k t t' := by
    rw [table?_withTable]
    by_cases heq : k = table
    · subst heq
      obtain rfl := Option.some.inj (ht.symm.trans ht₀)
      rw [if_pos rfl]
      exact ⟨u, rfl, hsame rfl⟩
    · rw [if_neg heq]
      exact ⟨t, ht, hother (Ne.symm heq)⟩
  have hstore {table : TableKey} {t₀ : Table} {col : ColumnKey} {slot : Nat}
      {x : CellContent} (ht₀ : s.table? table = some t₀)
      (hcreate : ∀ key, i ≠ .createObject k key)
      (hremove : ∀ key, i ≠ .removeObject k key) :
      ∃ t', (s.withTable table (t₀.store col slot x)).table? k = some t'
        ∧ Leaves i k t t' :=
    hwith ht₀
      (fun _ => .of_rows (Table.name_store ..) (Table.rows_store ..) hcreate
        hremove)
      fun _ => .of_rows rfl rfl hcreate hremove
  cases h with
  | addTable hname hnew =>
      have hne : k ≠ s.nextTable := by
        intro heq
        subst heq
        exact Nat.lt_irrefl _ (hs.aligned.table_lt _ t ht)
      rw [table?_withNewTable, if_neg hne]
      exact ⟨t, ht, .of_rows rfl rfl nofun nofun⟩
  | @removeTable key _ _ hfree =>
      have hne : k ≠ key := fun heq => hkept (heq ▸ rfl)
      rw [table?_withoutTable, if_neg hne]
      exact ⟨t, ht, .of_rows rfl rfl nofun nofun⟩
  | addColumn ht₀ | removeColumn ht₀ =>
      exact hwith ht₀ (fun _ => .of_rows rfl rfl nofun nofun)
        fun _ => .of_rows rfl rfl nofun nofun
  | @createObject table t₀ ht₀ =>
      refine hwith ht₀ (fun heq => ⟨rfl, fun key => ?_⟩) fun hne => ?_
      · subst heq
        rw [Table.contains_iff, Table.contains_iff]
        show (∃ slot, (t₀.rows.push t₀.nextObject).slot? key = some slot) ↔ _
        rw [Rows.slot?_push]
        by_cases hnew : key = t₀.nextObject
        · simp [hnew]
        · simp [hnew, Ne.symm hnew]
      · exact .of_rows rfl rfl (fun _ heq => hne (by cases heq; rfl)) nofun
  | @removeObject table t₀ gone slot ht₀ hslot =>
      -- taking links out comes last, and leaves every row
      rw [table?_withoutLinks, table?_withTable]
      by_cases heq : k = table
      · subst heq
        obtain rfl := Option.some.inj (ht.symm.trans ht₀)
        rw [if_pos rfl]
        refine ⟨_, rfl, rfl, fun key => ?_⟩
        rw [Table.contains_iff, Table.contains_iff]
        show (∃ slot', (t.rows.remove gone slot).slot? key = some slot') ↔ _
        rw [Rows.slot?_remove (hs.aligned.table k t ht).rows hslot]
        by_cases hgone : key = gone
        · simp [hgone]
        · simp [hgone, Ne.symm hgone]
      · rw [if_neg heq, ht]
        refine ⟨_, rfl, .of_rows rfl rfl nofun fun _ hremove => heq ?_⟩
        cases hremove
        rfl
  | set ht₀ => exact hstore ht₀ nofun nofun
  | listInsert ht₀ => exact hstore ht₀ nofun nofun
  | listSet ht₀ => exact hstore ht₀ nofun nofun
  | listRemove ht₀ => exact hstore ht₀ nofun nofun
  | listClear ht₀ => exact hstore ht₀ nofun nofun

/-- A table that is removed is gone. -/
theorem Applied.table_removed {k : TableKey}
    (h : Applied limits s (.removeTable k) s') :
    (∃ t, s.table? k = some t) ∧ s'.table? k = none := by
  cases h with
  | removeTable ht hfree =>
      refine ⟨⟨_, ht⟩, ?_⟩
      rw [table?_withoutTable, if_pos rfl]

/-- What an instruction takes away is gone. -/
theorem Applied.not_holds_of_takes (h : Applied limits s i s')
    (hs : s.Keyed) (htakes : i.Takes x) : ¬ s'.Holds x := by
  intro hx
  cases i with
  | removeTable k =>
      have hgone := h.table_removed.2
      cases x with
      | column => exact htakes
      | table key name | object key o =>
          obtain rfl : key = k := htakes
          obtain ⟨t', ht', -⟩ := hx
          rw [hgone] at ht'
          cases ht'
  | removeObject k o =>
      cases x with
      | column | table => exact htakes
      | object table key =>
          obtain ⟨rfl, rfl⟩ : table = k ∧ key = o := htakes
          obtain ⟨t', ht', hkey⟩ := hx
          cases id h with
          | removeObject ht hslot =>
              obtain ⟨u, hu, hleaves⟩ := h.table_left hs ht nofun
              obtain rfl := Option.some.inj (ht'.symm.trans hu)
              exact ((hleaves.contains_iff key).1 hkey).2 rfl
  | _ => cases x <;> exact htakes

/-- What an instruction does not take away stays. -/
theorem Applied.holds_kept (h : Applied limits s i s') (hs : s.Keyed)
    (hlisted : x.Listed) (hx : s.Holds x) (hkept : ¬ i.Takes x) :
    s'.Holds x := by
  cases x with
  | column => exact hlisted.elim
  | table key name =>
      obtain ⟨t, ht, rfl⟩ := hx
      have hstays : i ≠ .removeTable key := by
        rintro rfl
        exact hkept rfl
      obtain ⟨t', ht', hleaves⟩ := h.table_left hs ht hstays
      exact ⟨t', ht', hleaves.name_eq⟩
  | object table key =>
      obtain ⟨t, ht, hkey⟩ := hx
      have hstays : i ≠ .removeTable table := by
        rintro rfl
        exact hkept rfl
      have hthere : i ≠ .removeObject table key := by
        rintro rfl
        exact hkept ⟨rfl, rfl⟩
      obtain ⟨t', ht', hleaves⟩ := h.table_left hs ht hstays
      exact ⟨t', ht', (hleaves.contains_iff key).2 ⟨.inl hkey, hthere⟩⟩

/-- A table or object is there afterwards exactly if it was there before, or
was made, and was not taken away. -/
theorem Applied.holds_iff (h : Applied limits s i s') (hs : s.Keyed)
    (hlisted : x.Listed) :
    s'.Holds x ↔ (s.Holds x ∨ i.makes? = some x) ∧ ¬ i.Takes x := by
  constructor
  · exact fun hx => ⟨h.holds_before hs hx,
      fun htakes => h.not_holds_of_takes hs htakes hx⟩
  · rintro ⟨hx | hmade, hkept⟩
    · exact h.holds_kept hs hlisted hx hkept
    · exact h.holds_made hmade

/-- What an instruction takes away has a key that is spent for good. -/
theorem Applied.spent_of_takes (h : Applied limits s i s') (hs : s.Keyed)
    (hroom : s.HasRoom i) (htakes : i.Takes x) : s'.Spent x.id := by
  cases i with
  | removeTable k =>
      obtain ⟨⟨t, ht⟩, hgone⟩ := h.table_removed
      have hspent : s'.Spent (.table k) :=
        h.spent hs hroom (hs.spent_of_holds (x := .table k t.name)
          ⟨t, ht, rfl⟩)
      cases x with
      | column => exact htakes.elim
      | table key name =>
          obtain rfl : key = k := htakes
          exact hspent
      | object table key =>
          obtain rfl : table = k := htakes
          refine ⟨hspent, fun t' ht' => ?_⟩
          rw [hgone] at ht'
          cases ht'
  | removeObject k o =>
      cases x with
      | column | table => exact htakes.elim
      | object table key =>
          obtain ⟨rfl, rfl⟩ : table = k ∧ key = o := htakes
          refine h.spent hs hroom
            (hs.spent_of_holds (x := .object table key) ?_)
          cases h with
          | removeObject ht hslot =>
              exact ⟨_, ht, Table.contains_iff.2 ⟨_, hslot⟩⟩
  | _ => cases x <;> exact htakes.elim

-- ==================================================== many instructions

/-- The snapshot between a list of instructions and one more. -/
theorem Reached.last_step (h : Reached js s)
    (happ : Edit.Gives (Snapshot.applyAll limits (is ++ [i])) s () s')
    (hfit : FitCounters (js ++ (is ++ [i]))) :
    ∃ t, Edit.Gives (Snapshot.applyAll limits is) s () t
      ∧ Applied limits t i s' ∧ t.Keyed ∧ t.HasRoom i
      ∧ FitCounters (js ++ is) := by
  obtain ⟨t, hbefore, hlast⟩ := gives_applyAll_append.1 happ
  rw [gives_applyAll_singleton, apply_gives_iff] at hlast
  rw [← List.append_assoc] at hfit
  have hreached := h.applyAll hbefore
  exact ⟨t, hbefore, hlast, hreached.keyed hfit.before,
    hfit.hasRoom hreached.countersWithin, hfit.before⟩

/-- What was taken away by any of them has a spent key. -/
theorem Reached.spent_of_taken (h : Reached js s)
    (happ : Edit.Gives (Snapshot.applyAll limits is) s () s')
    (hfit : FitCounters (js ++ is)) (hi : i ∈ is) (htakes : i.Takes x) :
    s'.Spent x.id := by
  induction is using List.reverseRecOn generalizing s' with
  | nil => cases hi
  | append_singleton is last ih =>
      obtain ⟨t, hbefore, hlast, hkeyed, hroom, hfit⟩ := h.last_step happ hfit
      rcases List.mem_append.1 hi with hi | hi
      · exact hlast.spent hkeyed hroom (ih hbefore hfit hi)
      · obtain rfl := List.mem_singleton.1 hi
        exact hlast.spent_of_takes hkeyed hroom htakes

/-- A table or object is there afterwards exactly if it was there before, or
was made by one of the instructions, and was taken away by none. -/
theorem Reached.balance (h : Reached js s)
    (happ : Edit.Gives (Snapshot.applyAll limits is) s () s')
    (hfit : FitCounters (js ++ is)) (hlisted : x.Listed) :
    s'.Holds x
      ↔ (s.Holds x ∨ ∃ i ∈ is, i.makes? = some x) ∧ ∀ i ∈ is, ¬ i.Takes x := by
  induction is using List.reverseRecOn generalizing s' with
  | nil =>
      obtain rfl : s = s' := (Edit.gives_pure.1 happ).2
      simp
  | append_singleton is last ih =>
      obtain ⟨t, hbefore, hlast, hkeyed, -, hfit⟩ := h.last_step happ hfit
      -- what was taken away is not made again
      have hapart : last.makes? = some x → ∀ i ∈ is, ¬ i.Takes x := by
        intro hmade i hi htakes
        have hspent := h.spent_of_taken hbefore hfit hi htakes
        exact (hlast.made hkeyed hmade).1 hspent
      have hmakes : (∃ i ∈ is ++ [last], i.makes? = some x)
          ↔ (∃ i ∈ is, i.makes? = some x) ∨ last.makes? = some x := by
        simp [or_and_right, exists_or]
      have htakes : (∀ i ∈ is ++ [last], ¬ i.Takes x)
          ↔ (∀ i ∈ is, ¬ i.Takes x) ∧ ¬ last.Takes x := by
        simp [or_imp, forall_and]
      rw [hlast.holds_iff hkeyed hlisted, ih hbefore hfit, hmakes, htakes]
      constructor
      · rintro ⟨⟨hx, hkept⟩ | hmade, hlastKept⟩
        · exact ⟨hx.imp_right .inl, hkept, hlastKept⟩
        · exact ⟨.inr (.inr hmade), hapart hmade, hlastKept⟩
      · rintro ⟨hx | hmade | hmade, hkept, hlastKept⟩
        · exact ⟨.inl ⟨.inl hx, hkept⟩, hlastKept⟩
        · exact ⟨.inl ⟨.inr hmade, hkept⟩, hlastKept⟩
        · exact ⟨.inr hmade, hlastKept⟩

/-- What was there before is made by none of them. -/
theorem Reached.not_makes_of_holds (h : Reached js s)
    (happ : Edit.Gives (Snapshot.applyAll limits is) s () s')
    (hfit : FitCounters (js ++ is)) (hx : s.Holds x) (hi : i ∈ is) :
    i.makes? ≠ some x := by
  intro hmade
  have hall := (h.applyAll happ).makeApart hfit
  obtain ⟨-, -, hapart⟩ := List.pairwise_append.1 hall
  have hfront := hfit.take js.length
  rw [List.take_left] at hfront
  obtain ⟨j, hj, hfirst⟩ := h.made_of_holds hfront hx
  exact hapart j hj i hi x.id ⟨x, hfirst, rfl⟩ ⟨x, hmade, rfl⟩

/-- Whether instructions took away what they made, and nothing else. -/
structure Undone (s : Snapshot) (is : List Instruction) : Prop where
  made : ∀ x : Entity, x.Listed → (∃ i ∈ is, i.makes? = some x) →
    ∃ j ∈ is, j.Takes x
  taken : ∀ x : Entity, x.Listed → (∃ i ∈ is, i.Takes x) → ¬ s.Holds x

/-- The tables and objects are what they were exactly if the instructions
took away what they made, and nothing else. -/
theorem Reached.unchanged_iff (h : Reached js s)
    (happ : Edit.Gives (Snapshot.applyAll limits is) s () s')
    (hfit : FitCounters (js ++ is)) :
    (∀ x : Entity, x.Listed → (s'.Holds x ↔ s.Holds x)) ↔ Undone s is := by
  constructor
  · intro hsame
    refine ⟨fun x hlisted hmade => ?_, fun x hlisted ⟨i, hi, htakes⟩ hx => ?_⟩
    · by_contra hkept
      have hthere := (h.balance happ hfit hlisted).2
        ⟨.inr hmade, fun j hj htakes => hkept ⟨j, hj, htakes⟩⟩
      have hbefore := (hsame x hlisted).1 hthere
      obtain ⟨i, hi, hmade⟩ := hmade
      exact h.not_makes_of_holds happ hfit hbefore hi hmade
    · have hthere := (hsame x hlisted).2 hx
      exact ((h.balance happ hfit hlisted).1 hthere).2 i hi htakes
  · rintro ⟨hmade, htaken⟩ x hlisted
    rw [h.balance happ hfit hlisted]
    constructor
    · rintro ⟨hx | hx, hkept⟩
      · exact hx
      · obtain ⟨j, hj, htakes⟩ := hmade x hlisted hx
        exact (hkept j hj htakes).elim
    · exact fun hx => ⟨.inl hx, fun i hi htakes =>
        htaken x hlisted ⟨i, hi, htakes⟩ hx⟩

end Snapshot

end Colonnade
