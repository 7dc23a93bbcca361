/-
The order of rows cannot be observed. A removal moves the last row into the
slot that falls free, so two removals leave the rows in an order that
depends on which came first. They leave the same maps either way
(`Logical.Database.lose_comm`), and so snapshots that are read alike.

That they stay so is a simulation in lockstep over every kind of
instruction. Peers give one verdict (`Snapshot.Verdict`). Where they
succeed, both sides perform the same on equal maps; only a new column under
a key that is in use is not what the maps perform, since it hides behind
the one that was there, and there the two sides are compared directly.

Chain: the end of `Snapshot.Observed`, `Snapshot.Verdict` and
`Snapshot.Removed`.
-/
import Colonnade.Proofs.Snapshot.Removed
import Colonnade.Proofs.Snapshot.Verdict

namespace Colonnade

-- ======================================================= one instruction

/-- A new column reads the same in both of two peers, hidden or not. -/
theorem Table.Peers.logical_withColumn {t u : Table} (h : t.Peers u)
    (col : ColumnKey) (spec : ColumnSpec) :
    (t.withColumn col spec).logical = (u.withColumn col spec).logical := by
  have hnext : t.nextColumn = u.nextColumn :=
    congrArg Logical.Table.nextColumn h.logical_eq
  refine Logical.Table.ext h.frame.name_eq ?_ ?_ h.frame.nextObject_eq
    (funext fun key => ?_)
  · rw [columns_withColumn, columns_withColumn, h.logical_eq]
  · show t.nextColumn + 1 = u.nextColumn + 1
    rw [hnext]
  · rw [rows_logical, rows_logical]
    change (t.rows.slot? key).map _ = (u.rows.slot? key).map _
    rcases h.slot?_cases key with ⟨hi, hj⟩ | ⟨i, j, hi, hj, hrow⟩
    · rw [hi, hj]
      rfl
    rw [hi, hj]
    refine congrArg some (funext fun k => ?_)
    unfold rowAt
    rw [column?_withColumn, column?_withColumn]
    rcases h.frame.column?_cases k with ⟨hc, hd⟩ | ⟨c, d, hc, hd, -⟩
    · rw [hc, hd]
      split
      next =>
        have hleft := h.left.slotted.rows.slot_lt hi
        have hright := h.right.slotted.rows.slot_lt hj
        exact (Column.content?_blank hleft).trans
          (Column.content?_blank hright).symm
      next => rfl
    · rw [hc, hd]
      exact content?_eq hc hd hrow

namespace Snapshot

variable {limits : Limits} {s s' r r' : Snapshot} {i : Instruction}
  {is js : List Instruction}

/-- What an instruction makes of the index of names. -/
theorem Applied.names_eq (h : Applied limits s i s') :
    s'.names = match i with
      | .addTable key name => s.names.insert name key
      | .removeTable key =>
        match s.table? key with
        | some t => s.names.erase t.name
        | none => s.names
      | _ => s.names := by
  cases h with
  | removeTable ht =>
      dsimp only
      rw [ht]
      rfl
  | _ => rfl

theorem Applied.withColumn_of_addColumn {table : TableKey} {col : ColumnKey}
    {spec : ColumnSpec} (h : Applied limits s (.addColumn table col spec) s') :
    ∃ t, s.table? table = some t ∧ s' = s.withTable table (t.withColumn col spec) := by
  cases h with
  | addColumn ht => exact ⟨_, ht, rfl⟩

/-- Where an instruction succeeds on both of two peers, it leaves the same
maps. -/
theorem Peers.logical_applied (h : s.Peers r) (happ : Applied limits s i s')
    (happ' : Applied limits r i r') : s'.logical = r'.logical := by
  -- A column under a key that is in use is hidden, and the maps do not have it.
  by_cases hi : ∃ table col spec, i = .addColumn table col spec
  · obtain ⟨table, col, spec, rfl⟩ := hi
    obtain ⟨t, ht, rfl⟩ := happ.withColumn_of_addColumn
    obtain ⟨u, hu, rfl⟩ := happ'.withColumn_of_addColumn
    have hpeers := h.table?_cases table
    rw [ht, hu] at hpeers
    obtain ⟨hno, -⟩ | ⟨_, _, ⟨rfl⟩, ⟨rfl⟩, hpeers⟩ := hpeers
    · cases hno
    rw [logical_withTable (f := fun _ => (u.withColumn col spec).logical) ht
        (hpeers.logical_withColumn col spec),
      logical_withTable (f := fun _ => (u.withColumn col spec).logical) hu rfl,
      h.logical_eq]
  · have hno {s : Snapshot} (table : TableKey) (col : ColumnKey)
        (spec : ColumnSpec) (t : Table) (he : i = .addColumn table col spec) :
        s.table? table = some t → t.column? col = none :=
      absurd ⟨table, col, spec, he⟩ hi
    rw [happ.logical_eq_of_slotted h.left.slotted h.left.formed hno,
      happ'.logical_eq_of_slotted h.right.slotted h.right.formed hno,
      h.logical_eq]

theorem Peers.names_applied (h : s.Peers r) (happ : Applied limits s i s')
    (happ' : Applied limits r i r') (name : String) :
    s'.names[name]? = r'.names[name]? := by
  rw [happ.names_eq, happ'.names_eq]
  cases i with
  | addTable key new =>
      dsimp only
      rw [OrderedMap.getElem?_insert, OrderedMap.getElem?_insert, h.names_eq]
  | removeTable key =>
      dsimp only
      rcases h.table?_cases key with ⟨ht, hu⟩ | ⟨t, u, ht, hu, hpeers⟩
      · rw [ht, hu]
        exact h.names_eq name
      · rw [ht, hu]
        dsimp only
        rw [OrderedMap.getElem?_erase, OrderedMap.getElem?_erase,
          hpeers.frame.name_eq, h.names_eq]
  | _ => exact h.names_eq name

/-- What peers become by one instruction are peers. -/
theorem Peers.applied (h : s.Peers r) (happ : Applied limits s i s')
    (happ' : Applied limits r i r') (hs : s'.Sound) (hr : r'.Sound) :
    s'.Peers r' :=
  ⟨hs, hr, h.names_applied happ happ', h.logical_applied happ happ'⟩

-- ======================================================= in lockstep

/-- Two outcomes that no caller can tell apart: success in both or the same
error in both, with snapshots that are read alike. -/
def EndAlike :
    EStateM.Result Error Snapshot Unit → EStateM.Result Error Snapshot Unit →
      Prop
  | .ok _ s, .ok _ r => s.Alike r
  | .error err s, .error err' r => err = err' ∧ s.Alike r
  | _, _ => False

/-- One instruction ends alike on snapshots that are read alike. -/
theorem apply_alike (hs : Reached is s) (hr : Reached js r)
    (hfew : ∀ k, objectsCreated k (is ++ [i]) ≤ 2 ^ 64)
    (hfew' : ∀ k, objectsCreated k (js ++ [i]) ≤ 2 ^ 64) (h : s.Alike r)
    (limits : Limits) :
    EndAlike ((apply limits i).run s) ((apply limits i).run r) := by
  have hbefore {is : List Instruction} {k : TableKey}
      (hfew : objectsCreated k (is ++ [i]) ≤ 2 ^ 64) :
      objectsCreated k is ≤ 2 ^ 64 := by
    rw [objectsCreated_append] at hfew
    omega
  have hpeers := h.peers (hs.sound fun k => hbefore (hfew k))
    (hr.sound fun k => hbefore (hfew' k))
  have hverdict := hpeers.apply_verdict limits i
  unfold Edit.verdict at hverdict
  cases hrun : (apply limits i).run s with
  | ok _ s' =>
      cases hrun' : (apply limits i).run r with
      | ok _ r' =>
          have hsound := (hs.step hrun).sound hfew
          have hsound' := (hr.step hrun').sound hfew'
          exact (hpeers.applied (apply_gives_iff.1 hrun)
            (apply_gives_iff.1 hrun') hsound hsound').alike
      | error err r' =>
          rw [hrun, hrun'] at hverdict
          cases hverdict
  | error err s' =>
      cases hrun' : (apply limits i).run r with
      | ok _ r' =>
          rw [hrun, hrun'] at hverdict
          cases hverdict
      | error err' r' =>
          rw [hrun, hrun'] at hverdict
          cases hverdict
          obtain rfl := atomic_apply limits i s err s' hrun
          obtain rfl := atomic_apply limits i r err r' hrun'
          exact ⟨rfl, h⟩

/-- Instructions in order end alike on snapshots that are read alike, and
where one of them fails, it is the same one on both sides. -/
theorem applyAll_alike {l : List Instruction} (hs : Reached is s)
    (hr : Reached js r) (hfew : ∀ k, objectsCreated k (is ++ l) ≤ 2 ^ 64)
    (hfew' : ∀ k, objectsCreated k (js ++ l) ≤ 2 ^ 64) (h : s.Alike r)
    (limits : Limits) :
    EndAlike ((applyAll limits l).run s) ((applyAll limits l).run r) := by
  induction l generalizing is js s r with
  | nil => exact h
  | cons i l ih =>
      -- the bounds are on all that is created, so they hold of what is done
      -- first
      have hfirst {is : List Instruction} {k : TableKey}
          (hfew : objectsCreated k (is ++ i :: l) ≤ 2 ^ 64) :
          objectsCreated k (is ++ [i]) ≤ 2 ^ 64 := by
        unfold objectsCreated at hfew ⊢
        simp only [List.countP_append, List.countP_cons, List.countP_nil]
          at hfew ⊢
        omega
      have hone := apply_alike hs hr (fun k => hfirst (hfew k))
        (fun k => hfirst (hfew' k)) h limits
      show EndAlike ((apply limits i >>= fun _ => applyAll limits l).run s)
        ((apply limits i >>= fun _ => applyAll limits l).run r)
      rw [EStateM.run_bind, EStateM.run_bind]
      cases hrun : (apply limits i).run s with
      | ok _ s' =>
          cases hrun' : (apply limits i).run r with
          | ok _ r' =>
              rw [hrun, hrun'] at hone
              refine ih (hs.step hrun) (hr.step hrun') (fun k => ?_)
                (fun k => ?_) hone
              · rw [List.append_assoc]
                exact hfew k
              · rw [List.append_assoc]
                exact hfew' k
          | error err r' =>
              rw [hrun, hrun'] at hone
              exact hone.elim
      | error err s' =>
          cases hrun' : (apply limits i).run r with
          | ok _ r' =>
              rw [hrun, hrun'] at hone
              exact hone.elim
          | error err' r' =>
              rw [hrun, hrun'] at hone
              exact hone

-- ======================================================= two removals

/-- Two objects can be removed in either order, and what is left is read
alike. -/
theorem Sound.removals_alike (h : s.Sound) (limits : Limits) {k l : TableKey}
    {a b : ObjectKey} (ha : s.hasObject k a = true)
    (hb : s.hasObject l b = true) (hne : (k, a) ≠ (l, b)) :
    ∃ s₁ s₂,
      (applyAll limits [.removeObject k a, .removeObject l b]).run s = .ok () s₁
        ∧ (applyAll limits [.removeObject l b, .removeObject k a]).run s
          = .ok () s₂
        ∧ s₁.Alike s₂ := by
  have hboth {k l : TableKey} {a b : ObjectKey}
      (ha : s.hasObject k a = true) (hb : s.hasObject l b = true)
      (hne : (k, a) ≠ (l, b)) :
      ∃ s', Edit.Gives (applyAll limits [.removeObject k a, .removeObject l b])
          s () s'
        ∧ s'.Sound ∧ s'.logical = (s.logical.lose k [a]).lose l [b]
        ∧ s'.names = s.names := by
    obtain ⟨m, hone, hm, hlogical, hnames⟩ := h.removeObject limits ha
    have hstill : m.hasObject l b = true := by
      rw [hasObject_iff_live, hlogical, Logical.Database.live_lose]
      refine ⟨hasObject_iff_live.1 hb, ?_⟩
      rintro ⟨rfl, hmem⟩
      exact hne (congrArg (Prod.mk l) (List.mem_singleton.1 hmem).symm)
    obtain ⟨s', htwo, hs', hlogical', hnames'⟩ := hm.removeObject limits hstill
    refine ⟨s', Edit.gives_forM_cons.2 ⟨m, hone, gives_applyAll_singleton.2 htwo⟩,
      hs', ?_, hnames'.trans hnames⟩
    rw [hlogical', hlogical]
  obtain ⟨s₁, hone, hs₁, hlogical₁, hnames₁⟩ := hboth ha hb hne
  obtain ⟨s₂, htwo, hs₂, hlogical₂, hnames₂⟩ := hboth hb ha hne.symm
  refine ⟨s₁, s₂, hone, htwo, Peers.alike ⟨hs₁, hs₂, fun name => ?_, ?_⟩⟩
  · rw [hnames₁, hnames₂]
  · rw [hlogical₁, hlogical₂, Logical.Database.lose_comm]

/-- Slots cannot be observed. Two objects of a reached snapshot can be removed
in either order, and what is left is read alike although the rows may lie
differently; and snapshots that are read alike end alike under every
instruction, with the same error or with snapshots that are read alike. -/
theorem slots_unobservable :
    (∀ is s limits k l a b, Reached is s →
      (∀ k, objectsCreated k is ≤ 2 ^ 64) → s.hasObject k a = true →
      s.hasObject l b = true → (k, a) ≠ (l, b) →
      ∃ s₁ s₂,
        (applyAll limits [.removeObject k a, .removeObject l b]).run s
            = .ok () s₁
          ∧ (applyAll limits [.removeObject l b, .removeObject k a]).run s
            = .ok () s₂
          ∧ s₁.Alike s₂)
    ∧ ∀ is js s r limits i, Reached is s → Reached js r →
      (∀ k, objectsCreated k is < 2 ^ 64) →
      (∀ k, objectsCreated k js < 2 ^ 64) → s.Alike r →
      EndAlike ((apply limits i).run s) ((apply limits i).run r) := by
  constructor
  · intro is s limits k l a b h hfew ha hb hne
    exact (h.sound hfew).removals_alike limits ha hb hne
  · intro is js s r limits i hs hr hfew hfew' h
    have hroom {is : List Instruction} (hfew : ∀ k, objectsCreated k is < 2 ^ 64)
        (k : TableKey) : objectsCreated k (is ++ [i]) ≤ 2 ^ 64 := by
      have := hfew k
      rw [objectsCreated_append]
      split <;> omega
    exact apply_alike hs hr (hroom hfew) (hroom hfew') h limits

/-- Changes that make a ring of links between the first two of four
objects. -/
def ring : List Instruction :=
  [.addTable ⟨0⟩ "node", .addColumn ⟨0⟩ ⟨1⟩ (.link "next" ⟨0⟩),
    .createObject ⟨0⟩ ⟨0⟩, .createObject ⟨0⟩ ⟨1⟩, .createObject ⟨0⟩ ⟨2⟩,
    .createObject ⟨0⟩ ⟨3⟩, .set ⟨0⟩ ⟨0⟩ ⟨1⟩ (.link ⟨1⟩),
    .set ⟨0⟩ ⟨1⟩ ⟨1⟩ (.link ⟨0⟩)]

/-- The two objects of the ring go in either order, the rows that stay lie
in either order, and a new object is taken alike. -/
theorem ring_slots_unobservable :
    ∃ s s₁ s₂, Reached ring s
      ∧ (applyAll .none [.removeObject ⟨0⟩ ⟨0⟩, .removeObject ⟨0⟩ ⟨1⟩]).run s
        = .ok () s₁
      ∧ (applyAll .none [.removeObject ⟨0⟩ ⟨1⟩, .removeObject ⟨0⟩ ⟨0⟩]).run s
        = .ok () s₂
      ∧ (s₁.table? ⟨0⟩).map (·.rows.keys) = some #[⟨3⟩, ⟨2⟩]
      ∧ (s₂.table? ⟨0⟩).map (·.rows.keys) = some #[⟨2⟩, ⟨3⟩]
      ∧ s₁.Alike s₂
      ∧ EndAlike ((apply .none (.createObject ⟨0⟩ ⟨4⟩)).run s₁)
        ((apply .none (.createObject ⟨0⟩ ⟨4⟩)).run s₂) := by
  let after (is : List Instruction) (s : Snapshot) : Option (Array ObjectKey) :=
    ((applyAll .none is).after? s).bind fun s =>
      (s.table? ⟨0⟩).map (·.rows.keys)
  have hfacts : ((applyAll .none ring).after? .empty).map (fun s =>
      (s.hasObject ⟨0⟩ ⟨0⟩, s.hasObject ⟨0⟩ ⟨1⟩,
        after [.removeObject ⟨0⟩ ⟨0⟩, .removeObject ⟨0⟩ ⟨1⟩] s,
        after [.removeObject ⟨0⟩ ⟨1⟩, .removeObject ⟨0⟩ ⟨0⟩] s))
      = some (true, true, some #[⟨3⟩, ⟨2⟩], some #[⟨2⟩, ⟨3⟩]) := by
    decide +kernel
  obtain ⟨s, hafter, hfacts⟩ := Option.map_eq_some_iff.1 hfacts
  obtain ⟨hzero, hone, hleft, hright⟩ : _ ∧ _ ∧ _ ∧ _ := by
    simpa only [Prod.mk.injEq] using hfacts
  obtain ⟨_, hrun⟩ := Edit.after?_eq_some.1 hafter
  have hreached : Reached ring s := Reached.empty.applyAll hrun
  have hfew {is : List Instruction} (hlength : is.length ≤ 10) (k : TableKey) :
      objectsCreated k is < 2 ^ 64 := by
    have hcount : objectsCreated k is ≤ is.length := List.countP_le_length
    omega
  obtain ⟨s₁, s₂, h₁, h₂, halike⟩ := slots_unobservable.1 ring s .none ⟨0⟩ ⟨0⟩
    ⟨0⟩ ⟨1⟩ hreached (fun k => Nat.le_of_lt (hfew (by decide) k)) hzero hone
    (by decide)
  have hrows₁ : after [.removeObject ⟨0⟩ ⟨0⟩, .removeObject ⟨0⟩ ⟨1⟩] s
      = (s₁.table? ⟨0⟩).map (·.rows.keys) := by
    simp only [after, Edit.after?_eq_some.2 ⟨(), h₁⟩, Option.bind_some]
  have hrows₂ : after [.removeObject ⟨0⟩ ⟨1⟩, .removeObject ⟨0⟩ ⟨0⟩] s
      = (s₂.table? ⟨0⟩).map (·.rows.keys) := by
    simp only [after, Edit.after?_eq_some.2 ⟨(), h₂⟩, Option.bind_some]
  have hend := slots_unobservable.2 _ _ s₁ s₂ .none
    (.createObject ⟨0⟩ ⟨4⟩) (hreached.applyAll h₁) (hreached.applyAll h₂)
    (hfew (by decide)) (hfew (by decide)) halike
  exact ⟨s, s₁, s₂, hreached, h₁, h₂, hrows₁ ▸ hleft, hrows₂ ▸ hright, halike,
    hend⟩

end Snapshot

end Colonnade
