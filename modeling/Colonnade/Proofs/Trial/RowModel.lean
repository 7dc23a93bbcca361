/-
The rows of the plain model, written out as the maps of a database with one
table (`RowTable.database`). Creating, removing and setting do to these maps
what the model does to its rows: each has a lemma that says which instruction
it comes to and that the maps then perform the change of the model.

Rows are found by key, while the model lists them in the order of the keys;
that the keys of a model ascend (`Sound`) is what ties the two together. A
model `Takes` changes that do not run out of keys and have no text that is
too long, and this is kept from each change to the next and across batches.

Chain: `Trial.RowTable` has the engine follow these maps.
-/
import Colonnade.Proofs.Snapshot.Logical
import Colonnade.Trial.RowTable
import Mathlib.Algebra.Group.Int.Defs

namespace Colonnade.Trial

open Logical

variable {limits : Limits}

-- =========================================================== the model

/-- Whether a text that a change writes is within the limits. -/
def RowChange.Within (limits : Limits) : RowChange → Prop
  | .setText _ (some s) => s.utf8ByteSize ≤ limits.maxString
  | _ => True

/-- Selecting does not look at what it selects from. -/
theorem select?_map {α β : Type} (f : α → β) (xs : List α) (selector : Nat) :
    select? (xs.map f) selector = (select? xs selector).map f := by
  unfold select?
  rw [List.getElem?_map, List.length_map]

namespace RowModel

variable {m : RowModel} {key : ObjectKey} {row : Row}

/-- The keys of a model ascend and stay below the next one. -/
structure Sound (m : RowModel) : Prop where
  ascending : m.rows.Pairwise (·.1.raw < ·.1.raw)
  lt_next : ∀ p ∈ m.rows, p.1.raw < m.nextKey.raw

/-- The keys of the rows. -/
def keys (m : RowModel) : List ObjectKey := m.rows.map (·.1)

theorem selectKey?_eq (m : RowModel) (selector : Nat) :
    m.selectKey? selector = select? m.keys selector :=
  (select?_map _ _ _).symm

/-- The key that is selected is one of the rows. -/
theorem mem_keys_of_selectKey? {selector : Nat}
    (h : m.selectKey? selector = some key) : key ∈ m.keys := by
  rw [selectKey?_eq] at h
  exact List.mem_of_getElem? h

/-- A key is one of those listed if something is looked up under it. -/
theorem mem_map_fst {β : Type} {rows : List (ObjectKey × β)} :
    key ∈ rows.map (·.1) ↔ ∃ row, rows.lookup key = some row := by
  induction rows with
  | nil => simp
  | cons p rows ih =>
      rw [List.map_cons, List.mem_cons, ih, List.lookup_cons]
      by_cases h : key = p.1
      · simp [h]
      · simp [h, beq_false_of_ne h]

theorem mem_keys : key ∈ m.keys ↔ ∃ row, m.rows.lookup key = some row :=
  mem_map_fst

/-- In ascending rows each is found under its key. -/
theorem lookup_of_mem {β : Type} {row : β} {rows : List (ObjectKey × β)}
    (h : rows.Pairwise (·.1.raw < ·.1.raw)) (hmem : (key, row) ∈ rows) :
    rows.lookup key = some row := by
  induction rows with
  | nil => cases hmem
  | cons p rows ih =>
      obtain ⟨hfirst, hrest⟩ := List.pairwise_cons.1 h
      rcases List.mem_cons.1 hmem with rfl | hmem
      · exact List.lookup_cons_self
      · have hne : key ≠ p.1 := by
          intro heq
          have hlt : p.1.raw < key.raw := hfirst _ hmem
          exact Int64.lt_irrefl (heq ▸ hlt)
        rw [List.lookup_cons, beq_false_of_ne hne]
        exact ih hrest hmem

/-- A removed row is found no more, and every other one is. -/
theorem lookup_filter_ne (rows : List (ObjectKey × Row)) (key k : ObjectKey) :
    (rows.filter (·.1 ≠ key)).lookup k
      = if k = key then none else rows.lookup k := by
  induction rows with
  | nil => simp
  | cons p rows ih =>
      by_cases hp : p.1 = key
      · rw [List.filter_cons_of_neg (by simp [hp]), ih, List.lookup_cons]
        by_cases hk : k = key
        · rw [if_pos hk, if_pos hk]
        · rw [if_neg hk, if_neg hk, beq_false_of_ne (hp ▸ hk)]
      · rw [List.filter_cons_of_pos (by simp [hp]), List.lookup_cons,
          List.lookup_cons, ih]
        by_cases hk : k = p.1
        · simp [hk, hp]
        · simp [beq_false_of_ne hk]

/-- A changed row is found changed, and every other one as it was. -/
theorem lookup_edit (rows : List (ObjectKey × Row)) (key k : ObjectKey)
    (f : Row → Row) :
    (rows.map fun (k, r) => (k, if k = key then f r else r)).lookup k
      = if k = key then (rows.lookup k).map f else rows.lookup k := by
  induction rows with
  | nil => simp
  | cons p rows ih =>
      rw [List.map_cons, List.lookup_cons, List.lookup_cons, ih]
      by_cases hk : k = p.1
      · subst hk
        by_cases hp : p.1 = key <;> simp [hp]
      · simp [beq_false_of_ne hk]

/-- The next key is one further on, while there is one. -/
theorem toInt_nextKey (hroom : m.nextKey.raw.toInt + 1 < 2 ^ 63) :
    (m.nextKey.raw + 1).toInt = m.nextKey.raw.toInt + 1 := by
  have hlow := Int64.le_toInt m.nextKey.raw
  rw [Int64.toInt_add]
  show Int.bmod (_ + 1) _ = _
  rw [Int.bmod_eq_of_le] <;> omega

/-- Only a new row takes a key. -/
theorem nextKey_apply (m : RowModel) {change : RowChange}
    (h : change ≠ .create) : (m.apply change).nextKey = m.nextKey := by
  have hedit (selector : Nat) (f : Row → Row) :
      (m.edit selector f).nextKey = m.nextKey := by
    unfold edit
    split <;> rfl
  cases change with
  | create => exact absurd rfl h
  | remove selector =>
      unfold apply
      dsimp only
      split <;> rfl
  | setNumber selector number => exact hedit selector ({ · with number })
  | setText selector text => exact hedit selector ({ · with text })

namespace Sound

theorem empty : Sound {} := ⟨.nil, nofun⟩

/-- There is no row under the next key. -/
theorem lookup_nextKey (h : m.Sound) : m.rows.lookup m.nextKey = none := by
  cases hrow : m.rows.lookup m.nextKey with
  | none => rfl
  | some row =>
      obtain ⟨p, hp, hkey⟩ := List.mem_map.1 (mem_keys.2 ⟨row, hrow⟩)
      have hlt := h.lt_next p hp
      rw [hkey] at hlt
      exact absurd hlt Int64.lt_irrefl

/-- A created row is found under the next key. -/
theorem lookup_create (h : m.Sound) (k : ObjectKey) :
    (m.apply .create).rows.lookup k
      = if k = m.nextKey then some {} else m.rows.lookup k := by
  show (m.rows ++ [(m.nextKey, ({} : Row))]).lookup k = _
  rw [List.lookup_append, List.lookup_cons, List.lookup_nil]
  by_cases hk : k = m.nextKey
  · rw [hk, h.lookup_nextKey]
    simp
  · simp [hk, beq_false_of_ne hk]

/-- Whatever row is changed, the keys stay. -/
theorem edit (h : m.Sound) (selector : Nat) (f : Row → Row) :
    (m.edit selector f).Sound := by
  unfold RowModel.edit
  split
  next => exact h
  next key hkey =>
    refine ⟨List.pairwise_map.2 h.ascending, fun p hp => ?_⟩
    obtain ⟨q, hq, rfl⟩ := List.mem_map.1 hp
    exact h.lt_next q hq

/-- A new row comes last, as long as there is another key after its own. -/
theorem create (h : m.Sound) (hroom : m.nextKey.raw.toInt + 1 < 2 ^ 63) :
    (m.apply .create).Sound := by
  have hnext : m.nextKey.raw < m.nextKey.raw + 1 := by
    rw [Int64.lt_iff_toInt_lt, toInt_nextKey hroom]
    omega
  refine ⟨List.pairwise_append.2 ⟨h.ascending, List.pairwise_singleton _ _,
    fun p hp q hq => ?_⟩, fun p hp => ?_⟩
  · obtain rfl := List.mem_singleton.1 hq
    exact h.lt_next p hp
  · rcases List.mem_append.1 hp with hp | hp
    · exact Int64.lt_trans (h.lt_next p hp) hnext
    · obtain rfl := List.mem_singleton.1 hp
      exact hnext

/-- Every change of the rows keeps them sound, while there are keys. -/
theorem apply (h : m.Sound) (change : RowChange)
    (hroom : change = .create → m.nextKey.raw.toInt + 1 < 2 ^ 63) :
    (m.apply change).Sound := by
  cases change with
  | create => exact h.create (hroom rfl)
  | remove selector =>
      unfold RowModel.apply
      dsimp only
      split
      next => exact h
      next key hkey =>
        exact ⟨h.ascending.filter _, fun p hp =>
          h.lt_next p (List.mem_filter.1 hp).1⟩
  | setNumber selector number => exact h.edit selector ({ · with number })
  | setText selector text => exact h.edit selector ({ · with text })

end Sound

/-- Whether changes can be made to a model one after the other: no text is
too long and the keys do not run out. -/
structure Takes (limits : Limits) (m : RowModel)
    (changes : List RowChange) : Prop where
  sound : m.Sound
  room : m.nextKey.raw.toInt + changes.count .create < 2 ^ 63
  within : ∀ change ∈ changes, change.Within limits

namespace Takes

variable {change : RowChange} {changes more : List RowChange}

/-- If changes can be taken there is a key for the first. -/
theorem room_first (h : m.Takes limits (change :: changes)) :
    change = .create → m.nextKey.raw.toInt + 1 < 2 ^ 63 := by
  rintro rfl
  have hroom := h.room
  rw [List.count_cons_self] at hroom
  push_cast at hroom
  omega

/-- If changes can be taken, those behind the first can be taken behind it. -/
theorem rest (h : m.Takes limits (change :: changes)) :
    (m.apply change).Takes limits changes := by
  refine ⟨h.sound.apply change h.room_first, ?_,
    fun d hd => h.within d (List.mem_cons_of_mem _ hd)⟩
  have hroom := h.room
  by_cases hcreate : change = .create
  · subst hcreate
    have hnext := toInt_nextKey (h.room_first rfl)
    rw [List.count_cons_self] at hroom
    push_cast at hroom
    show (m.nextKey.raw + 1).toInt + _ < 2 ^ 63
    omega
  · rwa [List.count_cons_of_ne hcreate,
      ← nextKey_apply m hcreate] at hroom

/-- What comes after some changes can be made after they are. -/
theorem after (h : m.Takes limits (changes ++ more)) :
    (changes.foldl RowModel.apply m).Takes limits more := by
  induction changes generalizing m with
  | nil => exact h
  | cons change changes ih => exact ih h.rest

/-- It can be made without them too. -/
theorem without (h : m.Takes limits (changes ++ more)) :
    m.Takes limits more := by
  refine ⟨h.sound, ?_, fun d hd => h.within d (List.mem_append_right _ hd)⟩
  have hroom := h.room
  rw [List.count_append] at hroom
  push_cast at hroom
  omega

/-- If changes can be taken, those in front can. -/
theorem first (h : m.Takes limits (changes ++ more)) :
    m.Takes limits changes := by
  refine ⟨h.sound, ?_, fun d hd => h.within d (List.mem_append_left _ hd)⟩
  have hroom := h.room
  rw [List.count_append] at hroom
  push_cast at hroom
  omega

/-- If changes can be taken, those behind a batch can be taken behind it. -/
theorem afterBatch {b : Batch} (h : m.Takes limits (b.changes ++ more)) :
    (m.applyBatch b).Takes limits more := by
  unfold applyBatch
  split
  · exact h.after
  · exact h.without

/-- If changes can be taken, those behind some batches can be taken behind
them. -/
theorem afterBatches {batches : List Batch}
    (h : m.Takes limits (batches.flatMap (·.changes) ++ more)) :
    (batches.foldl applyBatch m).Takes limits more := by
  induction batches generalizing m with
  | nil => exact h
  | cons b batches ih =>
      rw [List.flatMap_cons, List.append_assoc] at h
      exact ih h.afterBatch

end Takes

end RowModel

-- ================================================= the rows of a model

namespace RowTable

variable {c : RowTable} {m : RowModel} {key : ObjectKey} {row : Row}
  {col : ColumnKey} {selector : Nat}

/-- The only table. -/
def tableKey : TableKey := ⟨0⟩

def numberSpec : ColumnSpec := .scalar "n" .int false

def textSpec : ColumnSpec := .scalar "s" .string true

/-- What the cells of a row hold. -/
def cells (c : RowTable) (r : Row) : Logical.Row := fun col =>
  if col = c.number then some (.value (.int r.number))
  else if col = c.text then some (.value (textValue r.text))
  else none

/-- The table that has the rows of a model. -/
def table (c : RowTable) (m : RowModel) : Logical.Table where
  name := tableName
  columns := [(c.number, numberSpec), (c.text, textSpec)]
  nextColumn := 3
  nextObject := m.nextKey
  rows := fun key => (m.rows.lookup key).map c.cells

/-- The database that has a table and no other. -/
def only (t : Logical.Table) : Database where
  tables := fun k => if k = tableKey then some t else none
  nextTable := ⟨1⟩

/-- The database that has the rows of a model. -/
def database (c : RowTable) (m : RowModel) : Database := only (c.table m)

theorem tables_database (c : RowTable) (m : RowModel) :
    (c.database m).tables tableKey = some (c.table m) := rfl

/-- The table has one column of numbers and one of texts. -/
theorem spec?_table (c : RowTable) (m : RowModel) (col : ColumnKey) :
    (c.table m).spec? col
      = if col = c.number then some numberSpec
        else if col = c.text then some textSpec else none := by
  unfold Logical.Table.spec? table
  dsimp only
  rw [List.lookup_cons, List.lookup_cons, List.lookup_nil]
  by_cases hnumber : col = c.number
  · rw [if_pos hnumber, hnumber, beq_self_eq_true]
  · rw [if_neg hnumber, beq_false_of_ne hnumber]
    by_cases htext : col = c.text
    · rw [if_pos htext, htext, beq_self_eq_true]
    · rw [if_neg htext, beq_false_of_ne htext]

/-- The table has the rows of the model. -/
theorem rows_table :
    (∃ r, (c.table m).rows key = some r) ↔ key ∈ m.keys := by
  rw [RowModel.mem_keys]
  show (∃ r, (m.rows.lookup key).map c.cells = some r) ↔ _
  cases m.rows.lookup key <;> simp

/-- To change the only table is to have another only table. -/
theorem onTable_only (t : Logical.Table) (f : Logical.Table → Logical.Table) :
    (only t).onTable tableKey f = only (f t) := by
  refine Database.ext (funext fun k => ?_) rfl
  unfold Database.onTable only
  dsimp only
  split <;> rfl

/-- Removing a row of it takes nothing else along, if no column links
anywhere. -/
theorem perform_remove_only {t : Logical.Table}
    (hlinks : ∀ col target, t.links col target = false) (key : ObjectKey) :
    (only t).perform (.removeObject tableKey key)
      = only (t.removeObject key) := by
  have hforget (target : TableKey) :
      (t.removeObject key).forget target key = t.removeObject key := by
    refine Table.ext rfl rfl rfl rfl (funext fun a => ?_)
    have hlinks (col : ColumnKey) :
        (t.removeObject key).links col target = false := hlinks col target
    show ((t.removeObject key).rows a).map _ = (t.removeObject key).rows a
    simp only [hlinks, Bool.false_eq_true, if_false, Option.map_id']
  refine Database.ext (funext fun k => ?_) rfl
  show (((only t).onTable tableKey (·.removeObject key)).tables k).map _ = _
  rw [onTable_only]
  unfold only
  dsimp only
  split
  next => exact congrArg some (hforget _)
  next => rfl

-- ==================================================== what a change does

/-- Creating a row in the table comes to creating one in the model. -/
theorem perform_create (h : m.Sound) :
    (c.database m).perform (.createObject tableKey m.nextKey)
      = c.database (m.apply .create) := by
  refine (onTable_only _ _).trans (congrArg only ?_)
  refine Table.ext rfl rfl rfl rfl (funext fun key => ?_)
  show update _ _ _ key = ((m.apply .create).rows.lookup key).map c.cells
  rw [h.lookup_create]
  unfold update
  split
  next =>
    refine congrArg some (funext fun col => ?_)
    rw [spec?_table]
    unfold cells
    split
    · rfl
    · split <;> rfl
  next => rfl

/-- No column of the table links anywhere. -/
theorem links_table (c : RowTable) (m : RowModel) (col : ColumnKey)
    (target : TableKey) : (c.table m).links col target = false := by
  unfold Logical.Table.links
  rw [spec?_table]
  split
  · rfl
  · split <;> rfl

/-- Removing a row from the table comes to removing it from the model. -/
theorem perform_remove (hkey : m.selectKey? selector = some key) :
    (c.database m).perform (.removeObject tableKey key)
      = c.database (m.apply (.remove selector)) := by
  have hremoved : (c.table m).removeObject key
      = c.table (m.apply (.remove selector)) := by
    refine Table.ext rfl rfl rfl ?_ (funext fun k => ?_)
    · unfold RowModel.apply
      dsimp only
      rw [hkey]
      rfl
    · unfold RowModel.apply
      dsimp only
      rw [hkey]
      show update (fun key => (m.rows.lookup key).map c.cells) key none k
        = ((m.rows.filter (·.1 ≠ key)).lookup k).map c.cells
      rw [RowModel.lookup_filter_ne]
      unfold update
      split <;> rfl
  exact (perform_remove_only (links_table c m) key).trans
    (congrArg only hremoved)

/-- A row is changed in one cell. -/
theorem perform_set {f : Row → Row} {v : Value}
    (hcells : ∀ r, update (c.cells r) col (some (.value v)) = c.cells (f r))
    (hkey : m.selectKey? selector = some key) :
    (c.database m).perform (.set tableKey key col v)
      = c.database (m.edit selector f) := by
  unfold RowModel.edit
  rw [hkey]
  refine (onTable_only _ _).trans (congrArg only ?_)
  refine Table.ext rfl rfl rfl rfl (funext fun k => ?_)
  show (if k = key then ((m.rows.lookup k).map c.cells).map fun r =>
      update r col (some (.value v)) else (m.rows.lookup k).map c.cells)
    = ((m.rows.map fun (k, r) => (k, if k = key then f r else r)).lookup
      k).map c.cells
  rw [RowModel.lookup_edit]
  split
  next =>
    rw [Option.map_map, Option.map_map]
    exact congrArg (Option.map · _) (funext hcells)
  next => rfl

/-- Setting the number of a row touches nothing else of it. -/
theorem update_number (c : RowTable) (r : Row) (n : Int64) :
    update (c.cells r) c.number (some (.value (.int n)))
      = c.cells { r with number := n } := by
  funext col
  unfold update cells
  split <;> rfl

/-- Setting the text of a row touches nothing else of it. -/
theorem update_text (hc : c.number ≠ c.text) (r : Row) (s : Option String) :
    update (c.cells r) c.text (some (.value (textValue s)))
      = c.cells { r with text := s } := by
  funext col
  unfold update cells
  by_cases htext : col = c.text
  · rw [if_pos htext, if_neg (htext ▸ hc.symm), if_pos htext]
  · rw [if_neg htext, if_neg htext, if_neg htext]

/-- A cell of a row that is selected takes what its column accepts. -/
theorem allowed_set {spec : ColumnSpec} {v : Value}
    (hspec : (c.table m).spec? col = some spec) (hlist : spec.isList = false)
    (hv : spec.Accepts limits v) (hlink : ∀ k, v ≠ .link k)
    (hkey : m.selectKey? selector = some key) :
    (c.database m).Allowed limits (.set tableKey key col v) :=
  ⟨c.table m, spec,
    ⟨tables_database c m, hspec,
      rows_table.2 (RowModel.mem_keys_of_selectKey? hkey)⟩,
    hlist, hv, fun k hk => absurd hk (hlink k)⟩

/-- The column of texts accepts every text within the limits. -/
theorem accepts_text {s : Option String} {selector : Nat}
    (h : (RowChange.setText selector s).Within limits) :
    textSpec.Accepts limits (textValue s) := by
  cases s with
  | none => rfl
  | some s => exact ⟨rfl, h⟩

end RowTable

end Colonnade.Trial
