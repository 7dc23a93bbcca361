/-
The engine keeps the ledger that the book says. Creating the table and each
commit are followed on the maps: a pair is added in four steps of a draft, or
the two rows under the lowest keys are removed, which are a pair because keys
are given upward and pairs are made and removed as such (`yields_change`).
Whoever sees the maps of a sound book reads off the amounts in the order of
their keys, and sums them up to zero.

Nothing that a commit does is beyond a handle, so readers who look on keep
what they have (`commit_hosts`).

Chain: over `Trial.Book` and `Engine.Onlookers`; `Trial.Course` has readers
and a writer take turns.
-/
import Colonnade.Proofs.Engine.Onlookers
import Colonnade.Proofs.Trial.Book
import Colonnade.Proofs.Trial.RowTable

namespace Colonnade.Trial.Ledger

open Engine Logical
open RowTable (tableKey only blank yields_addColumn_only holds_inMemory)

variable {limits : Limits} {a : Anchor} {base : Database}
  {P : Engine → Prop} {n : Nat} {v w : Int64} {vs : List Int64}
  {key : ObjectKey} {p : Plan} {b : Book}

/-- A snapshot in which the ledger is as a book says, and balances: the
amounts, in the order of the keys of their rows, are the entries of the book,
which are even in number and sum to zero, with no sum on the way too large. -/
structure Balances (s : Snapshot) (amount : ColumnKey) (b : Book) : Prop where
  entries : ∃ t, s.tableNamed? tableName = some t
    ∧ t.objectKeys.map (t.valueOf · amount)
      = b.entries.map (fun v => .ok (.int v))
  balanced : Balanced b.entries

-- ============================================================ reading

/-- The keys of the table are those of its rows, in their order. -/
theorem objectKeys_eq {t : Table} (h : t.Shows (table n vs))
    (hfits : n + vs.length ≤ 2 ^ 63) :
    t.objectKeys = (rows n vs).map (·.1) := by
  refine h.objectKeys_eq (List.pairwise_map.2 (pairwise_rows hfits))
    fun key => RowModel.mem_map_fst.trans ?_
  show _ ↔ ∃ row, ((rows n vs).lookup key).map cells = some row
  cases (rows n vs).lookup key <;> simp

/-- A snapshot that shows a sound book balances. -/
theorem balances_of_shows {s : Snapshot} (h : s.Shows b.database)
    (hb : b.Sound n) (hn : n ≤ 2 ^ 61) : Balances s amountKey b := by
  have hfits := hb.fits hn
  obtain ⟨t, hnamed, -, ht⟩ :=
    h.tableNamed? (tables_ledger (2 * b.removed) b.entries)
  refine ⟨⟨t, hnamed, ?_⟩, hb.balanced⟩
  rw [objectKeys_eq ht (by omega), List.map_map]
  have hvalues : ∀ q ∈ rows (2 * b.removed) b.entries,
      t.valueOf q.1 amountKey = .ok (.int q.2) := fun q hq =>
    ht.valueOf_eq (cell?_table
      (RowModel.lookup_of_mem (pairwise_rows (by omega)) hq))
  calc (rows (2 * b.removed) b.entries).map ((t.valueOf · amountKey) ∘ (·.1))
      = (rows (2 * b.removed) b.entries).map fun q => .ok (.int q.2) :=
        List.map_congr_left hvalues
    _ = ((rows (2 * b.removed) b.entries).map (·.2)).map
          fun v => .ok (.int v) := by rw [List.map_map]; rfl
    _ = b.entries.map fun v => .ok (.int v) := by rw [map_snd_rows]

theorem requireTable_of_sees {e : Engine} (h : Sees a (ledger n vs) e) :
    e.requireTable a.transaction tableName = .ok ⟨a, tableKey⟩ :=
  h.requireTable (tables_ledger n vs)

/-- The keys listed are those of the rows. -/
theorem yields_objectKeys (hfits : n + vs.length ≤ 2 ^ 63)
    (hsees : ∀ e, P e → Sees a (ledger n vs) e) :
    Edit.Yields P (TableHandle.objectKeys ⟨a, tableKey⟩)
      ((rows n vs).map (·.1)) P :=
  yields_readTable hsees (tables_ledger n vs) fun _ ht =>
    congrArg Except.ok (objectKeys_eq ht hfits)

/-- The amount read is the one in the row. -/
theorem yields_amountOf (hsees : ∀ e, P e → Sees a (ledger n vs) e)
    (hrow : (rows n vs).lookup key = some v) :
    Edit.Yields P (amountOf ⟨a, tableKey⟩ amountKey key) v P := by
  have hspec : (table n vs).spec? amountKey = some amountSpec :=
    (spec?_table n vs amountKey).trans (if_pos rfl)
  have hvalue : Edit.Yields P (ObjectHandle.getTyped ⟨a, tableKey, key⟩
      amountKey amountSpec.type) (.int v) P :=
    yields_getTyped hsees (tables_ledger n vs) hspec (cell?_table hrow)
  exact (yields_object hsees (tables_ledger n vs)
    ⟨_, rows_table_of_lookup hrow⟩).bind (hvalue.bind (.pure P _))

/-- Whoever sees a ledger that balances sums it up to zero. -/
theorem yields_sum (hb : b.Sound n) (hn : n ≤ 2 ^ 61)
    (hsees : ∀ e, P e → Sees a b.database e) :
    Edit.Yields P (sum a.transaction amountKey) (0, b.entries.length) P := by
  have hfits := hb.fits hn
  have hamounts : Edit.Yields P ((rows (2 * b.removed) b.entries).mapM
      fun q => amountOf ⟨a, tableKey⟩ amountKey q.1)
      ((rows (2 * b.removed) b.entries).map (·.2)) P :=
    .mapM fun q hq => yields_amountOf hsees
      (RowModel.lookup_of_mem (pairwise_rows (by omega)) hq)
  rw [map_snd_rows] at hamounts
  refine .asks (fun e he => requireTable_of_sees (hsees e he)) ?_
  refine (yields_objectKeys (by omega) hsees).bind ?_
  rw [List.mapM_map]
  refine hamounts.bind ?_
  rw [hb.balanced.foldl_eq]
  exact .pure P _

-- ============================================================ writing

/-- A row is added, with no amount yet. -/
theorem yields_createRow (hfits : n + vs.length + 1 < 2 ^ 63) :
    Edit.Yields (Drafts limits a base (ledger n vs))
      (TableHandle.createObject ⟨a, tableKey⟩)
      ⟨a, tableKey, keyAt (n + vs.length)⟩
      (Drafts limits a base (ledger n (vs ++ [0]))) := by
  have hroom : (ledger n vs).HasRoom
      (.createObject tableKey (table n vs).nextObject) := by
    intro t ht
    obtain rfl := Option.some.inj ht
    show (keyAt (n + vs.length)).raw.toInt + 1 < 2 ^ 63
    rw [keyAt_raw (by omega)]
    omega
  rw [← perform_create (by omega)]
  exact yields_createObject (tables_ledger n vs) hroom

/-- The row that was added last is given its amount. -/
theorem yields_setRow (hfits : n + vs.length < 2 ^ 63) :
    Edit.Yields (Drafts limits a base (ledger n (vs ++ [v])))
      (ObjectHandle.set ⟨a, tableKey, keyAt (n + vs.length)⟩ amountKey
        (.int w)) ()
      (Drafts limits a base (ledger n (vs ++ [w]))) := by
  have hspec : (table n (vs ++ [v])).spec? amountKey = some amountSpec :=
    (spec?_table n _ amountKey).trans (if_pos rfl)
  have hrow := rows_table_of_lookup (lookup_rows_concat (v := v) hfits)
  have hallowed : (ledger n (vs ++ [v])).Allowed limits
      (.set tableKey (keyAt (n + vs.length)) amountKey (.int w)) :=
    ⟨_, amountSpec, ⟨rfl, hspec, _, hrow⟩, rfl, ⟨rfl, trivial⟩, nofun⟩
  have hset : Edit.Yields (Drafts limits a base (ledger n (vs ++ [v])))
      (ObjectHandle.set ⟨a, tableKey, _⟩ amountKey (.int w)) () _ :=
    yields_set (tables_ledger n _) hallowed
  rwa [perform_set hfits] at hset

/-- Adding a pair adds an amount and its negative. -/
theorem yields_addPair (hfits : n + vs.length + 2 < 2 ^ 63) :
    Edit.Yields (Drafts limits a base (ledger n vs))
      (addPair ⟨a, tableKey⟩ amountKey v) ()
      (Drafts limits a base (ledger n (vs ++ [v] ++ [-v]))) := by
  have hlength : (vs ++ [v]).length = vs.length + 1 := by simp
  exact (yields_createRow (by omega)).bind <|
    (yields_setRow (by omega)).bind <|
    (yields_createRow (by omega)).bind (yields_setRow (by omega))

/-- The first row is removed. -/
theorem yields_removeRow (hfits : n + (v :: vs).length ≤ 2 ^ 63) :
    Edit.Yields (Drafts limits a base (ledger n (v :: vs)))
      (TableHandle.removeObject ⟨a, tableKey⟩ (keyAt n)) ()
      (Drafts limits a base (ledger (n + 1) vs)) := by
  have hrow : (table n (v :: vs)).rows (keyAt n) = some (cells v) :=
    rows_table_of_lookup List.lookup_cons_self
  rw [← perform_remove hfits]
  exact yields_removeObject (tables_ledger _ _) ⟨_, hrow⟩

/-- Removing a pair removes the two oldest rows. -/
theorem yields_removePair (hfits : n + (v :: w :: vs).length ≤ 2 ^ 63) :
    Edit.Yields (Drafts limits a base (ledger n (v :: w :: vs)))
      (do
        TableHandle.removeObject ⟨a, tableKey⟩ (keyAt n)
        TableHandle.removeObject ⟨a, tableKey⟩ (keyAt (n + 1))) ()
      (Drafts limits a base (ledger (n + 2) vs)) := by
  refine (yields_removeRow hfits).bind (yields_removeRow ?_)
  rw [List.length_cons] at hfits
  omega

/-- The two lowest keys are those of a pair, if there are any: what a commit
does to the rows it does to the book. -/
theorem yields_change (hb : b.Sound n) (hn : n < 2 ^ 61) :
    Edit.Yields (Drafts limits a base b.database)
      (match p.removesAt n, (rows (2 * b.removed) b.entries).map (·.1) with
        | true, first :: second :: _ => do
          TableHandle.removeObject ⟨a, tableKey⟩ first
          TableHandle.removeObject ⟨a, tableKey⟩ second
        | _, _ => addPair ⟨a, tableKey⟩ amountKey (Int64.ofNat n + 1)) ()
      (Drafts limits a base (b.commit p n).database) := by
  have hfits := hb.fits (by omega)
  obtain ⟨removed, amounts⟩ := b
  have hadds : Edit.Yields
      (Drafts limits a base (Book.database ⟨removed, amounts⟩))
      (addPair ⟨a, tableKey⟩ amountKey (Int64.ofNat n + 1)) ()
      (Drafts limits a base
        (Book.database ⟨removed, amounts ++ [Int64.ofNat n + 1]⟩)) := by
    unfold Book.entries at hfits
    unfold Book.database Book.entries
    rw [Book.pairs_append]
    exact yields_addPair (by omega)
  unfold Book.commit
  cases p.removesAt n with
  | false => exact hadds
  | true =>
      cases amounts with
      | nil => exact hadds
      | cons v rest =>
          have hfits : 2 * removed + (v :: -v :: Book.pairs rest).length
              ≤ 2 ^ 63 := Nat.le_trans hfits (by decide)
          exact yields_removePair hfits

/-- A commit makes of the ledger what it makes of the book. -/
theorem commit_hosts {e : Engine} (h : Holds limits b.database e)
    (hreading : ∀ a t, e.transaction? a = some t → t.view.mode ≠ .writing)
    (hb : b.Sound n) (hn : n < 2 ^ 61) :
    ∃ e', Edit.Gives (commit p amountKey n) e () e'
      ∧ Hosts limits (b.commit p n).database e.version.next e.transaction?
        e' := by
  have hfits := hb.fits (by omega)
  unfold commit
  refine h.write hreading (fun id => ?_) fun id P hP => ?_
  · refine .asks (fun e he => requireTable_of_sees he.sees) ?_
    refine (yields_objectKeys (by omega) fun e he => he.sees).bind ?_
    exact yields_change hb hn
  · have hset (h : ObjectHandle) (v : Int64) :
        Edit.Preserves P (h.set amountKey (.int v)) :=
      Edit.Ends.bind (hP.write _ _ _) fun _ => .pure fun _ h => h
    refine Edit.Ends.get_bind fun e he => ?_
    refine Edit.Ends.lift_bind (fun t _ => ?_) fun s hs => hs ▸ he
    refine ((hP.read _ _ _).of_eq he).bind fun keys => ?_
    split
    · exact Edit.Ends.bind (hP.removeObject t _) fun _ =>
        hP.removeObject t _
    · refine Edit.Ends.bind (t.createObject_lasting hP) fun first => ?_
      refine Edit.Ends.bind (hset first _) fun _ => ?_
      exact Edit.Ends.bind (t.createObject_lasting hP) fun second =>
        hset second _

/-- The table is made in a commit of its own, and has no rows. -/
theorem create_hosts (config : Config) :
    ∃ e, Edit.Gives create (Engine.inMemory config) amountKey e
      ∧ Hosts config.limits (Book.database {}) ⟨1⟩ (fun _ => none) e := by
  let bare : Logical.Table := { name := tableName }
  have hnone (id : TransactionId) :
      (Engine.inMemory config).transaction? id = none :=
    Std.TreeMap.getElem?_emptyc
  have hallowed : blank.Allowed config.limits (.addTable tableKey tableName) :=
    ⟨rfl, by decide, nofun⟩
  have hroom : blank.HasRoom (.addTable tableKey tableName) := by
    show (0 : UInt32).toNat + 1 < 2 ^ 32
    decide
  have hcolumn (id : TransactionId) :
      Edit.Yields (Drafts config.limits ⟨id, 0⟩ blank (only bare))
        (TableHandle.addColumn ⟨⟨id, 0⟩, tableKey⟩ amountSpec) amountKey
        (Drafts config.limits ⟨id, 0⟩ blank
          (only (bare.addColumn amountKey amountSpec))) :=
    yields_addColumn_only rfl rfl nofun (by decide)
  have hwrites : ∃ e, Edit.Gives create (Engine.inMemory config) amountKey e
      ∧ Hosts config.limits (Book.database {}) ⟨1⟩
        (Engine.inMemory config).transaction? e := by
    refine (holds_inMemory config).write
      (fun a t ht => absurd ((hnone a).symm.trans ht) nofun) (fun id => ?_)
      fun id P hP => ?_
    · exact (yields_addTable (a := ⟨id, 0⟩) hallowed hroom).bind (hcolumn id)
    · exact Edit.Ends.bind (hP.addTable _) fun t =>
        t.addColumn_lasting hP _
  rwa [funext hnone] at hwrites

end Colonnade.Trial.Ledger
