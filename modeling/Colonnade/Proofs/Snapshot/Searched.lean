/-
Reading a table by key. Rows lie in slots, and after a few removals the
slots are in no order of their own. What a caller is given is in the order
of the keys all the same: the keys of a table are sorted, and a search runs
over the slots and answers with the least key that it has met.

Both rest on the row index alone. A key that is met at a slot is the key
that is found at that slot, so what the cells of the slot hold is what the
object has (`mem_matching`), and how the rows came to lie as they do does
not matter.

Chain: over `Snapshot.Slotted`; `Snapshot.Observed` compares what is read.
-/
import Colonnade.Proofs.Snapshot.Regular
import Colonnade.Proofs.Snapshot.Slotted
import Colonnade.Proofs.Value

namespace Colonnade

-- ======================================================= keys in order

/-- Keys are compared as integers. -/
theorem ObjectKey.le_iff {a b : ObjectKey} :
    a.le b = true ↔ a.raw.toInt ≤ b.raw.toInt := by
  unfold le
  rw [decide_eq_true_iff, Int64.le_iff_toInt_le]

theorem ObjectKey.eq_of_le {a b : ObjectKey} (hab : a.le b = true)
    (hba : b.le a = true) : a = b := by
  have hraw := Int64.toInt_inj.1 (Int.le_antisymm (le_iff.1 hab) (le_iff.1 hba))
  cases a
  cases b
  exact congrArg mk hraw

theorem Rows.pairwise_sortedKeys (r : Rows) :
    r.sortedKeys.Pairwise fun a b => a.le b = true := by
  refine List.pairwise_mergeSort (fun a b c hab hbc => ?_) (fun a b => ?_) _
  · rw [ObjectKey.le_iff] at hab hbc ⊢
    exact Int.le_trans hab hbc
  · rw [Bool.or_eq_true, ObjectKey.le_iff, ObjectKey.le_iff]
    exact Int.le_total _ _

/-- Keys in ascending order are those of the rows, sorted, if they are the
same keys. -/
theorem Rows.Inverse.sortedKeys_eq {r : Rows} (h : r.Inverse)
    {keys : List ObjectKey} (hascending : keys.Pairwise (·.raw < ·.raw))
    (hkeys : ∀ key, key ∈ keys ↔ ∃ slot, r.slot? key = some slot) :
    r.sortedKeys = keys := by
  have hpairwise : keys.Pairwise fun a b => a.le b = true :=
    hascending.imp fun hab =>
      ObjectKey.le_iff.2 (Int.le_of_lt (Int64.lt_iff_toInt_lt.1 hab))
  have hnodup : keys.Nodup := hascending.imp fun hab heq => by
    rw [heq] at hab
    exact Int64.lt_irrefl hab
  have hperm : r.sortedKeys.Perm keys := by
    refine (List.mergeSort_perm _ _).trans ?_
    rw [List.perm_ext_iff_of_nodup h.nodup hnodup]
    intro key
    rw [hkeys, Array.mem_toList_iff, Array.mem_iff_getElem?]
    exact exists_congr fun slot => (h key slot).symm
  exact hperm.eq_of_pairwise (fun a b _ _ => ObjectKey.eq_of_le)
    r.pairwise_sortedKeys hpairwise

/-- The sorted keys are those of the rows. -/
theorem Rows.Inverse.mem_sortedKeys {r : Rows} (h : r.Inverse)
    {key : ObjectKey} :
    key ∈ r.sortedKeys ↔ ∃ slot, r.slot? key = some slot := by
  unfold sortedKeys
  rw [List.mem_mergeSort, Array.mem_toList_iff, Array.mem_iff_getElem?]
  exact exists_congr fun slot => (h key slot).symm

/-- No key is listed twice. -/
theorem Rows.Inverse.ascending_sortedKeys {r : Rows} (h : r.Inverse) :
    r.sortedKeys.Pairwise (·.raw < ·.raw) := by
  have hnodup : r.sortedKeys.Nodup :=
    (List.mergeSort_perm _ _).nodup_iff.2 h.nodup
  refine (r.pairwise_sortedKeys.and hnodup).imp fun {a b} hab => ?_
  refine Int64.lt_iff_toInt_lt.2 ?_
  have hle := ObjectKey.le_iff.1 hab.1
  have hne : a.raw.toInt ≠ b.raw.toInt := fun heq =>
    hab.2 (ObjectKey.eq_of_le (ObjectKey.le_iff.2 (Int.le_of_eq heq))
      (ObjectKey.le_iff.2 (Int.le_of_eq heq.symm)))
  omega

theorem Rows.length_sortedKeys (r : Rows) : r.sortedKeys.length = r.size :=
  List.length_mergeSort _

-- ======================================================= the least key

namespace Table

/-- There is no least key where there is no key. -/
theorem leastKey_eq_none {ks : List ObjectKey} :
    leastKey ks = none ↔ ks = [] := by
  cases ks with
  | nil => simp [leastKey]
  | cons k ks =>
      simp only [leastKey, reduceCtorEq, iff_false]
      split
      · exact nofun
      · split <;> exact nofun

/-- The least key is one of them, and below all of them. -/
theorem least_of_leastKey {ks : List ObjectKey} {key : ObjectKey}
    (h : leastKey ks = some key) :
    key ∈ ks ∧ ∀ a ∈ ks, key.le a = true := by
  induction ks generalizing key with
  | nil => cases h
  | cons k ks ih =>
      cases hm : leastKey ks with
      | none =>
          rw [leastKey, hm] at h
          cases h
          rw [leastKey_eq_none.1 hm]
          simp [ObjectKey.le_iff]
      | some m =>
          obtain ⟨hmem, hleast⟩ := ih hm
          rw [leastKey, hm] at h
          simp only [ObjectKey.le_iff] at hleast h ⊢
          rw [List.forall_mem_cons]
          split at h
          next hk =>
            cases h
            exact ⟨List.mem_cons_self, Int.le_refl _, fun a ha =>
              Int.le_trans hk (hleast a ha)⟩
          next hk =>
            cases h
            exact ⟨List.mem_cons_of_mem _ hmem, by omega, hleast⟩

/-- The least key is one of the keys and not above any. -/
theorem leastKey_eq_some {ks : List ObjectKey} {key : ObjectKey} :
    leastKey ks = some key ↔ key ∈ ks ∧ ∀ a ∈ ks, key.le a = true := by
  refine ⟨least_of_leastKey, fun h => ?_⟩
  cases hm : leastKey ks with
  | none =>
      rw [leastKey_eq_none.1 hm] at h
      cases h.1
  | some m =>
      obtain ⟨hmem, hleast⟩ := least_of_leastKey hm
      rw [ObjectKey.eq_of_le (hleast key h.1) (h.2 m hmem)]

variable {t : Table} {col : ColumnKey} {c : Column} {key : ObjectKey}
  {v w : Value}

/-- Whether an object has a value in a column that equals a given one. -/
def Matches (t : Table) (col : ColumnKey) (v : Value) (key : ObjectKey) :
    Prop :=
  t.contains key = true ∧ ∃ w, t.valueOf key col = .ok w ∧ w.Equal v

/-- A value is read where its row is. -/
theorem valueOf_eq_ok (hc : t.column? col = some c)
    (hlist : c.spec.isList = false) :
    t.valueOf key col = .ok w
      ↔ ∃ slot, t.rows.slot? key = some slot ∧ c.valueAt slot = w := by
  simp only [valueOf, Check.bind_eq_ok, requireColumn_eq_ok, hc,
    Option.some.injEq, Check.throw_bind, Check.guard_eq_ok, requireSlot_eq_ok,
    Check.pure_eq_ok, exists_eq_left', hlist, Bool.false_eq_true,
    not_false_eq_true, true_and]

/-- The keys at the slots that match are the objects that match. -/
theorem mem_matching (h : t.Slotted) (hc : t.column? col = some c)
    (hlist : c.spec.isList = false) :
    key ∈ (c.matchingSlots v).filterMap (t.rows.keys[·]?)
      ↔ t.Matches col v key := by
  have hsize := h.size_eq c (mem_of_column? hc)
  simp only [List.mem_filterMap, Column.matchingSlots, List.mem_filter,
    List.mem_range, hlist, Bool.not_false, Bool.true_and, Matches,
    valueOf_eq_ok hc hlist, contains_iff, Value.equal_iff]
  constructor
  · rintro ⟨slot, ⟨-, hequal⟩, hkey⟩
    have hslot := (h.rows key slot).2 hkey
    exact ⟨⟨slot, hslot⟩, _, ⟨slot, hslot, rfl⟩, hequal⟩
  · rintro ⟨-, _, ⟨slot, hslot, rfl⟩, hequal⟩
    have hlt : slot < c.size := hsize ▸ h.rows.slot_lt hslot
    exact ⟨slot, ⟨hlt, hequal⟩, (h.rows key slot).1 hslot⟩

/-- What a search should answer with: the least object whose value matches,
or nothing if there is none. -/
def LeastMatch (t : Table) (col : ColumnKey) (v : Value) :
    Option ObjectKey → Prop
  | some key => t.Matches col v key ∧ ∀ a, t.Matches col v a → key.raw ≤ a.raw
  | none => ∀ a, ¬ t.Matches col v a

/-- There is one least match at most. -/
theorem LeastMatch.unique {found other : Option ObjectKey}
    (h : t.LeastMatch col v found) (h' : t.LeastMatch col v other) :
    found = other := by
  cases found with
  | none =>
      cases other with
      | none => rfl
      | some b => exact absurd h'.1 (h b)
  | some a =>
      cases other with
      | none => exact absurd h.1 (h' a)
      | some b =>
          have hab := ObjectKey.eq_of_le (a := a) (b := b)
            (decide_eq_true (h.2 b h'.1)) (decide_eq_true (h'.2 a h.1))
          rw [hab]

/-- Looking in a column that is not there is a bad argument. -/
theorem findFirst_unknown (hc : t.column? col = none) :
    t.findFirst col v = .error (.illegalArgument (.unknownColumn col t.name)) := by
  unfold findFirst requireColumn
  rw [hc]
  rfl

/-- Looking in a column of lists is not supported. -/
theorem findFirst_list (hc : t.column? col = some c)
    (hlist : c.spec.isList = true) :
    t.findFirst col v = .error (.unsupported
      s!"find_first is not supported on list column '{c.spec.name}'.") := by
  unfold findFirst
  rw [requireColumn_eq_ok.2 hc]
  show (if c.spec.isList = true then _ else _) = _
  rw [if_pos hlist]
  rfl

/-- Looking in a column without lists gives the least key of what matches. -/
theorem findFirst_scalar (hc : t.column? col = some c)
    (hlist : c.spec.isList = false) :
    t.findFirst col v
      = .ok (leastKey ((c.matchingSlots v).filterMap (t.rows.keys[·]?))) := by
  unfold findFirst
  rw [requireColumn_eq_ok.2 hc]
  show (if c.spec.isList = true then _ else _) = _
  rw [if_neg (by simp [hlist])]
  rfl

/-- In a table whose rows and cells are in step, the least of the keys that
a search meets is the least object that matches. -/
theorem leastMatch_leastKey (h : t.Slotted) (hc : t.column? col = some c)
    (hlist : c.spec.isList = false) :
    t.LeastMatch col v
      (leastKey ((c.matchingSlots v).filterMap (t.rows.keys[·]?))) := by
  have hmem (key : ObjectKey) :
      key ∈ (c.matchingSlots v).filterMap (t.rows.keys[·]?)
        ↔ t.Matches col v key :=
    mem_matching h hc hlist
  cases hleast : leastKey ((c.matchingSlots v).filterMap (t.rows.keys[·]?)) with
  | none =>
      intro a ha
      have hmet := (hmem a).2 ha
      rw [leastKey_eq_none.1 hleast] at hmet
      cases hmet
  | some key =>
      obtain ⟨hkey, hbelow⟩ := leastKey_eq_some.1 hleast
      refine ⟨(hmem key).1 hkey, fun a ha => ?_⟩
      exact of_decide_eq_true (hbelow a ((hmem a).2 ha))

end Table

-- ==================================================== reached tables

namespace Snapshot

variable {is : List Instruction} {s : Snapshot} {k : TableKey} {t : Table}

/-- However the rows of a table came to lie, a search in a column of single
values answers with the least object that matches. In a column of lists it
is not supported, and a column that is not there is an illegal argument. -/
theorem Reached.findFirst_least (h : Reached is s)
    (hfew : objectsCreated k is ≤ 2 ^ 64) (ht : s.table? k = some t)
    (col : ColumnKey) (v : Value) :
    match t.column? col with
    | none =>
      t.findFirst col v = .error (.illegalArgument (.unknownColumn col t.name))
    | some c =>
      if c.spec.isList = true then
        t.findFirst col v = .error (.unsupported
          s!"find_first is not supported on list column '{c.spec.name}'.")
      else
        ∃ found, t.findFirst col v = .ok found ∧ t.LeastMatch col v found
          ∧ (v.IsNaN → found = none) := by
  have hslotted := h.slotted hfew ht
  cases hc : t.column? col with
  | none => exact Table.findFirst_unknown hc
  | some c =>
      dsimp only
      split
      next hlist => exact Table.findFirst_list hc hlist
      next hlist =>
        have hlist : c.spec.isList = false := by simpa using hlist
        have hleast := Table.leastMatch_leastKey (v := v) hslotted hc hlist
        refine ⟨_, Table.findFirst_scalar hc hlist, hleast, fun hnan => ?_⟩
        cases hfound : Table.leastKey
            ((c.matchingSlots v).filterMap (t.rows.keys[·]?)) with
        | none => rfl
        | some key =>
            rw [hfound] at hleast
            obtain ⟨⟨-, w, -, hequal⟩, -⟩ := hleast
            exact absurd hequal (Value.not_equal_of_isNaN hnan)

/-- Changes that leave the rows of a table in the order 3, 1, 2, the last
two written with the two zeros. -/
def scattered : List Instruction :=
  [.addTable ⟨0⟩ "point", .addColumn ⟨0⟩ ⟨1⟩ (.scalar "x" .double true),
    .createObject ⟨0⟩ ⟨0⟩, .createObject ⟨0⟩ ⟨1⟩, .createObject ⟨0⟩ ⟨2⟩,
    .createObject ⟨0⟩ ⟨3⟩, .set ⟨0⟩ ⟨3⟩ ⟨1⟩ (.double ⟨0x8000000000000000⟩),
    .set ⟨0⟩ ⟨2⟩ ⟨1⟩ (.double ⟨0⟩), .removeObject ⟨0⟩ ⟨0⟩]

/-- Either zero would do, and the one that comes first by slot is not the
one that comes first by key. -/
theorem scattered_findFirst_least :
    ∃ s t, Reached scattered s ∧ s.table? ⟨0⟩ = some t
      ∧ t.rows.keys = #[⟨3⟩, ⟨1⟩, ⟨2⟩]
      ∧ t.findFirst ⟨1⟩ (.double ⟨0⟩) = .ok (some ⟨2⟩)
      ∧ t.LeastMatch ⟨1⟩ (.double ⟨0⟩) (some ⟨2⟩) := by
  have hfacts : ((applyAll .none scattered).after? .empty).bind (fun s =>
      (s.table? ⟨0⟩).map fun t =>
        (t.rows.keys, (t.column? ⟨1⟩).map (·.spec.isList),
          (t.findFirst ⟨1⟩ (.double ⟨0⟩)).toOption))
      = some (#[⟨3⟩, ⟨1⟩, ⟨2⟩], some false, some (some ⟨2⟩)) := by
    decide +kernel
  obtain ⟨s, hafter, hfacts⟩ := Option.bind_eq_some_iff.1 hfacts
  obtain ⟨t, ht, hfacts⟩ := Option.map_eq_some_iff.1 hfacts
  obtain ⟨_, hrun⟩ := Edit.after?_eq_some.1 hafter
  have hreached : Reached scattered s := Reached.empty.applyAll hrun
  have hleast := hreached.findFirst_least (k := ⟨0⟩) (by decide) ht ⟨1⟩
    (.double ⟨0⟩)
  obtain ⟨hkeys, hcolumn, hfind⟩ : _ ∧ _ ∧ _ := by
    simpa only [Prod.mk.injEq] using hfacts
  obtain ⟨c, hc, hlist⟩ := Option.map_eq_some_iff.1 hcolumn
  rw [hc] at hleast
  obtain ⟨found, hfound, hmatch, -⟩ := by simpa [hlist] using hleast
  rw [hfound] at hfind
  cases hfind
  exact ⟨s, t, hreached, ht, hkeys, hfound, hmatch⟩

end Snapshot

end Colonnade
