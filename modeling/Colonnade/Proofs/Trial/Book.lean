/-
The ledger written out. A `Book` is what the writer believes of it: a queue
of amounts, the oldest first, each of which stands for a pair of rows that
cancel. A commit adds a pair at the end or takes the oldest away. In the
order of their keys the rows are the pairs one after the other, under keys
that follow each other (`Book.entries`), because pairs are made in one go
and only the first is ever removed; so the two lowest keys are a pair.

Such a list of entries is `Balanced`: their number is even, they sum to zero,
and no sum of the first of them is greater than the greatest amount.

The maps of a database whose only table has these rows are `ledger`. Adding a
row, giving the last row its amount and removing the first row are what they
look like on the entries.

Chain: over `Trial.RowModel`, from which the database with one table comes;
`Trial.Ledger` has the engine follow these maps.
-/
import Colonnade.Proofs.Trial.RowModel
import Colonnade.Trial.Ledger
import Mathlib.Algebra.Group.Nat.Defs
import Mathlib.Algebra.Ring.Int.Defs

namespace Colonnade.Trial.Ledger

open Logical
open RowTable (tableKey only onTable_only perform_remove_only)

-- ============================================================ balance

/-- What amounts sum to. -/
def total (amounts : List Int64) : Int := (amounts.map (·.toInt)).sum

/-- Whether amounts are even in number and sum to zero, with no sum of the
first of them beyond the range of a word. -/
structure Balanced (amounts : List Int64) : Prop where
  even : amounts.length % 2 = 0
  total_eq : total amounts = 0
  inRange : ∀ first, first <+: amounts →
    -2 ^ 63 ≤ total first ∧ total first < 2 ^ 63

theorem total_cons (v : Int64) (amounts : List Int64) :
    total (v :: amounts) = v.toInt + total amounts := rfl

/-- The negative of a positive amount is one. -/
theorem toInt_neg {v : Int64} (hv : 0 < v.toInt) :
    (-v).toInt = -v.toInt := by
  have hlt := Int64.toInt_lt v
  rw [Int64.toInt_neg, Int.bmod_eq_of_le] <;> omega

/-- Summing words does not lose anything on the way. -/
theorem Balanced.foldl_eq {amounts : List Int64} (h : Balanced amounts) :
    amounts.foldl (· + ·) 0 = 0 := by
  -- what was summed up so far is the sum of a first part
  have hsum (rest first : List Int64) (sum : Int64)
      (hsum : sum.toInt = total first) (heq : first ++ rest = amounts) :
      (rest.foldl (· + ·) sum).toInt = total amounts := by
    induction rest generalizing first sum with
    | nil =>
        rw [List.append_nil] at heq
        rw [← heq]
        exact hsum
    | cons v rest ih =>
        have hsplit : (first ++ [v]) ++ rest = amounts := by
          rw [List.append_assoc]
          exact heq
        have hrange := h.inRange (first ++ [v]) ⟨rest, hsplit⟩
        have htotal : total (first ++ [v]) = total first + v.toInt := by
          unfold total
          rw [List.map_append, List.sum_append]
          exact congrArg _ (Int.add_zero _)
        refine ih (first ++ [v]) (sum + v) ?_ hsplit
        rw [htotal] at hrange ⊢
        rw [Int64.toInt_add, hsum, Int.bmod_eq_of_le] <;> omega
  rw [← Int64.toInt_inj, hsum amounts [] 0 rfl rfl, h.total_eq]
  rfl

-- =============================================================== books

/-- A ledger: how many pairs were removed, and the amounts of those that are
left, the oldest first. -/
structure Book where
  removed : Nat := 0
  amounts : List Int64 := []
deriving DecidableEq, Repr

namespace Book

/-- What the rows of pairs hold, in the order of their keys. -/
def pairs (amounts : List Int64) : List Int64 :=
  amounts.flatMap fun v => [v, -v]

def entries (b : Book) : List Int64 := pairs b.amounts

/-- How many pairs there ever were. -/
def made (b : Book) : Nat := b.removed + b.amounts.length

/-- The commit with a number takes the oldest pair away, if it is one that
does and there is a pair, and adds a pair otherwise. -/
def commit (p : Plan) (b : Book) (i : Nat) : Book :=
  match p.removesAt i, b.amounts with
  | true, _ :: rest => ⟨b.removed + 1, rest⟩
  | _, _ => { b with amounts := b.amounts ++ [Int64.ofNat i + 1] }

/-- The ledger after so many commits. -/
def after (p : Plan) : Nat → Book
  | 0 => {}
  | n + 1 => (after p n).commit p n

variable {b : Book} {p : Plan} {n : Nat}

/-- What a book is like after some commits: there were no more pairs than
commits, and their amounts are positive and no greater. -/
structure Sound (b : Book) (commits : Nat) : Prop where
  made_le : b.made ≤ commits
  bounds : ∀ v ∈ b.amounts, 0 < v.toInt ∧ v.toInt ≤ commits

/-- A sound book stays sound with one more commit. -/
theorem Sound.commit (h : b.Sound n) (hn : n < 2 ^ 61) :
    (b.commit p n).Sound (n + 1) := by
  have hamount : (Int64.ofNat n + 1).toInt = n + 1 := by
    rw [show Int64.ofNat n + 1 = Int64.ofNat (n + 1) from
      (Int64.ofNat_add n 1).symm, Int64.toInt_ofNat_of_lt (by omega)]
    rfl
  have hmade := h.made_le
  unfold made at hmade
  unfold Book.commit
  split
  next v rest _ hamounts =>
    rw [hamounts, List.length_cons] at hmade
    refine ⟨by show b.removed + 1 + rest.length ≤ n + 1; omega,
      fun w hw => ?_⟩
    have hbounds := h.bounds w (hamounts ▸ List.mem_cons_of_mem _ hw)
    push_cast
    omega
  next =>
    constructor
    · show b.removed + (b.amounts ++ [_]).length ≤ n + 1
      rw [List.length_append, List.length_singleton]
      omega
    · intro w hw
      rcases List.mem_append.1 hw with hw | hw
      · have hbounds := h.bounds w hw
        push_cast
        omega
      · obtain rfl := List.mem_singleton.1 hw
        rw [hamount]
        push_cast
        omega

/-- The book of a plan is sound behind every commit. -/
theorem sound_after (p : Plan) (hn : n ≤ 2 ^ 61) : (after p n).Sound n := by
  induction n with
  | zero => exact ⟨Nat.le_refl 0, nofun⟩
  | succ n ih => exact (ih (by omega)).commit (by omega)

/-- There is nothing to take away at first; the third commit takes the pair
of the first. -/
example : (after ⟨3, 1, 2⟩ 1, after ⟨3, 1, 2⟩ 3) = (⟨0, [1]⟩, ⟨1, [2]⟩) := by
  decide

/-- There are twice as many entries as amounts. -/
theorem length_pairs (amounts : List Int64) :
    (pairs amounts).length = 2 * amounts.length := by
  induction amounts with
  | nil => rfl
  | cons v rest ih =>
      show (pairs rest).length + 1 + 1 = 2 * (rest.length + 1)
      omega

/-- Two to the 61 commits leave keys to give. -/
theorem Sound.fits (h : b.Sound n) (hn : n ≤ 2 ^ 61) :
    2 * b.removed + b.entries.length ≤ 2 ^ 62 := by
  have hmade := h.made_le
  have hlength := length_pairs b.amounts
  unfold made at hmade
  unfold entries
  omega

/-- One more amount is one more pair at the end. -/
theorem pairs_append (amounts : List Int64) (v : Int64) :
    pairs (amounts ++ [v]) = pairs amounts ++ [v] ++ [-v] := by
  unfold pairs
  rw [List.flatMap_append, List.append_assoc]
  rfl

/-- Pairs that cancel balance. -/
theorem balanced_pairs {amounts : List Int64}
    (hbounds : ∀ v ∈ amounts, 0 < v.toInt) : Balanced (pairs amounts) := by
  induction amounts with
  | nil =>
      refine ⟨rfl, rfl, fun first hfirst => ?_⟩
      obtain rfl := List.prefix_nil.1 hfirst
      exact ⟨by decide, by decide⟩
  | cons v rest ih =>
      obtain ⟨hv, hrest⟩ := List.forall_mem_cons.1 hbounds
      have hlt := Int64.toInt_lt v
      have hneg := toInt_neg hv
      obtain ⟨heven, htotal, hrange⟩ := ih hrest
      have hpairs : pairs (v :: rest) = v :: -v :: pairs rest := rfl
      rw [hpairs]
      refine ⟨?_, ?_, fun first hfirst => ?_⟩
      · rw [List.length_cons, List.length_cons]
        omega
      · rw [total_cons, total_cons, hneg]
        omega
      · -- a sum stops before the pair, between its rows, or after it
        rcases List.prefix_cons_iff.1 hfirst with rfl | ⟨second, rfl, hsecond⟩
        · exact ⟨by decide, by decide⟩
        rcases List.prefix_cons_iff.1 hsecond with rfl | ⟨third, rfl, hthird⟩
        · have hone : total [v] = v.toInt := Int.add_zero _
          omega
        · have hthree := hrange third hthird
          rw [total_cons, total_cons, hneg]
          omega

theorem Sound.balanced (h : b.Sound n) : Balanced b.entries :=
  balanced_pairs fun v hv => (h.bounds v hv).1

end Book

-- ================================================================ rows

/-- The key that the counter gives to the row with a number. -/
def keyAt (n : Nat) : ObjectKey := ⟨Int64.ofNat n⟩

/-- Rows under keys that follow each other. -/
def rows (n : Nat) : List Int64 → List (ObjectKey × Int64)
  | [] => []
  | v :: vs => (keyAt n, v) :: rows (n + 1) vs

variable {n m : Nat} {v w : Int64} {vs : List Int64} {key : ObjectKey}
  {limits : Limits}

/-- The n-th key is n, while there are keys. -/
theorem keyAt_raw (hn : n < 2 ^ 63) : (keyAt n).raw.toInt = n :=
  Int64.toInt_ofNat_of_lt hn

/-- Different places have different keys. -/
theorem keyAt_ne (hn : n < 2 ^ 63) (hm : m < 2 ^ 63) (hne : m ≠ n) :
    keyAt m ≠ keyAt n := by
  intro heq
  have hraw : (keyAt m).raw.toInt = (keyAt n).raw.toInt := by rw [heq]
  rw [keyAt_raw hm, keyAt_raw hn] at hraw
  omega

/-- The next key is the key of the next place. -/
theorem keyAt_succ (n : Nat) :
    (⟨(keyAt n).raw + 1⟩ : ObjectKey) = keyAt (n + 1) :=
  congrArg ObjectKey.mk (Int64.ofNat_add n 1).symm

/-- One more amount is one more row under the next key. -/
theorem rows_append (n : Nat) (vs : List Int64) (v : Int64) :
    rows n (vs ++ [v]) = rows n vs ++ [(keyAt (n + vs.length), v)] := by
  induction vs generalizing n with
  | nil => rfl
  | cons w vs ih =>
      show (keyAt n, w) :: rows (n + 1) (vs ++ [v]) = _
      rw [ih, List.length_cons, Nat.add_right_comm, Nat.add_assoc]
      rfl

/-- The rows hold the amounts. -/
theorem map_snd_rows (n : Nat) (vs : List Int64) :
    (rows n vs).map (·.2) = vs := by
  induction vs generalizing n with
  | nil => rfl
  | cons v vs ih => exact congrArg (v :: ·) (ih (n + 1))

/-- The key of a row is that of a place among the amounts. -/
theorem mem_rows {q : ObjectKey × Int64} (h : q ∈ rows n vs) :
    ∃ i, n ≤ i ∧ i < n + vs.length ∧ q.1 = keyAt i := by
  induction vs generalizing n with
  | nil => cases h
  | cons v vs ih =>
      rw [List.length_cons]
      rcases List.mem_cons.1 h with rfl | h
      · exact ⟨n, by omega, by omega, rfl⟩
      · obtain ⟨i, hle, hlt, heq⟩ := ih h
        exact ⟨i, by omega, by omega, heq⟩

/-- The keys ascend, as long as they are not used up. -/
theorem pairwise_rows (hfits : n + vs.length ≤ 2 ^ 63) :
    (rows n vs).Pairwise (·.1.raw < ·.1.raw) := by
  induction vs generalizing n with
  | nil => exact .nil
  | cons v vs ih =>
      rw [List.length_cons] at hfits
      refine List.pairwise_cons.2 ⟨fun q hq => ?_, ih (by omega)⟩
      obtain ⟨i, hle, hlt, heq⟩ := mem_rows hq
      rw [heq, Int64.lt_iff_toInt_lt, keyAt_raw (by omega),
        keyAt_raw (by omega)]
      omega

/-- Nothing is found under a key that was not given yet, or is gone. -/
theorem lookup_rows_eq_none (hfits : n + vs.length ≤ 2 ^ 63)
    (hm : m < 2 ^ 63) (hout : m < n ∨ n + vs.length ≤ m) :
    (rows n vs).lookup (keyAt m) = none := by
  refine List.lookup_eq_none_iff.2 fun q hq => ?_
  obtain ⟨i, hle, hlt, heq⟩ := mem_rows hq
  have hne : keyAt m ≠ keyAt i := keyAt_ne (by omega) hm (by omega)
  rw [heq]
  exact bne_iff_ne.2 hne

/-- The last row is under the last key that was given. -/
theorem lookup_rows_concat (hfits : n + vs.length < 2 ^ 63) :
    (rows n (vs ++ [v])).lookup (keyAt (n + vs.length)) = some v := by
  rw [rows_append, List.lookup_append, lookup_rows_eq_none (by omega) hfits
    (.inr (Nat.le_refl _)), Option.none_or]
  exact List.lookup_cons_self

/-- One more row changes nothing about the others. -/
theorem lookup_rows_concat_of_ne (h : key ≠ keyAt (n + vs.length)) :
    (rows n (vs ++ [v])).lookup key = (rows n vs).lookup key := by
  rw [rows_append, List.lookup_append, List.lookup_cons,
    beq_false_of_ne h]
  exact Option.or_none

-- ================================================================ maps

/-- The key of the column of the amounts. -/
def amountKey : ColumnKey := Table.columnKey tableKey 1

def amountSpec : ColumnSpec := .scalar "amount" .int false

/-- What the cells of a row hold. -/
def cells (v : Int64) : Logical.Row := fun col =>
  if col = amountKey then some (.value (.int v)) else none

/-- Setting the amount leaves nothing of the old one. -/
theorem update_cells (v w : Int64) :
    update (cells v) amountKey (some (.value (.int w))) = cells w := by
  funext col
  unfold update cells
  split <;> rfl

/-- The table that has entries under the keys from a number on. -/
def table (n : Nat) (vs : List Int64) : Logical.Table where
  name := tableName
  columns := [(amountKey, amountSpec)]
  nextColumn := 2
  nextObject := keyAt (n + vs.length)
  rows := fun key => ((rows n vs).lookup key).map cells

/-- The database with this table. -/
def ledger (n : Nat) (vs : List Int64) : Database := only (table n vs)

theorem tables_ledger (n : Nat) (vs : List Int64) :
    (ledger n vs).tables tableKey = some (table n vs) := rfl

/-- The database with what a book says. -/
def Book.database (b : Book) : Database := ledger (2 * b.removed) b.entries

/-- The table has the one column of amounts. -/
theorem spec?_table (n : Nat) (vs : List Int64) (col : ColumnKey) :
    (table n vs).spec? col
      = if col = amountKey then some amountSpec else none := by
  unfold Logical.Table.spec? table
  dsimp only
  rw [List.lookup_cons, List.lookup_nil]
  by_cases hcol : col = amountKey
  · rw [if_pos hcol, hcol, beq_self_eq_true]
  · rw [if_neg hcol, beq_false_of_ne hcol]

/-- The table has the rows of the book. -/
theorem rows_table_of_lookup
    (h : (rows n vs).lookup key = some v) :
    (table n vs).rows key = some (cells v) :=
  congrArg (Option.map cells) h

/-- The table holds the amounts of the book. -/
theorem cell?_table (h : (rows n vs).lookup key = some v) :
    (table n vs).cell? key amountKey = some (.value (.int v)) := by
  unfold Logical.Table.cell?
  rw [rows_table_of_lookup h]
  show cells v amountKey = _
  exact if_pos rfl

/-- A new row comes last, with no amount yet. -/
theorem perform_create (hfits : n + vs.length < 2 ^ 63) :
    (ledger n vs).perform (.createObject tableKey (keyAt (n + vs.length)))
      = ledger n (vs ++ [0]) := by
  refine (onTable_only _ _).trans (congrArg only ?_)
  refine Logical.Table.ext rfl rfl rfl ?_ (funext fun key => ?_)
  · show (⟨(keyAt (n + vs.length)).raw + 1⟩ : ObjectKey) = keyAt _
    rw [keyAt_succ, List.length_append, List.length_singleton]
    rfl
  · show update _ _ _ key = ((rows n (vs ++ [0])).lookup key).map cells
    unfold update
    split
    next hkey =>
      subst hkey
      rw [lookup_rows_concat hfits]
      refine congrArg some (funext fun col => ?_)
      rw [spec?_table]
      unfold cells
      split <;> rfl
    next hkey =>
      rw [lookup_rows_concat_of_ne hkey]
      rfl

/-- The last row is given its amount. -/
theorem perform_set (hfits : n + vs.length < 2 ^ 63) :
    (ledger n (vs ++ [v])).perform
        (.set tableKey (keyAt (n + vs.length)) amountKey (.int w))
      = ledger n (vs ++ [w]) := by
  have hlength : (vs ++ [w]).length = (vs ++ [v]).length := by simp
  refine (onTable_only _ _).trans (congrArg only ?_)
  refine Logical.Table.ext rfl rfl rfl ?_ (funext fun key => ?_)
  · exact congrArg (fun l => keyAt (n + l)) hlength.symm
  · show (if key = _ then (((rows n (vs ++ [v])).lookup key).map cells).map _
        else ((rows n (vs ++ [v])).lookup key).map cells)
      = ((rows n (vs ++ [w])).lookup key).map cells
    split
    next hkey =>
      subst hkey
      rw [lookup_rows_concat hfits, lookup_rows_concat hfits]
      exact congrArg some (update_cells v w)
    next hkey =>
      rw [lookup_rows_concat_of_ne hkey, lookup_rows_concat_of_ne hkey]

/-- The column of the amounts links nowhere. -/
theorem links_table (n : Nat) (vs : List Int64) (col : ColumnKey)
    (target : TableKey) : (table n vs).links col target = false := by
  unfold Logical.Table.links
  rw [spec?_table]
  split <;> rfl

/-- The first row is removed, and the rest stay as they are. -/
theorem perform_remove (hfits : n + (v :: vs).length ≤ 2 ^ 63) :
    (ledger n (v :: vs)).perform (.removeObject tableKey (keyAt n))
      = ledger (n + 1) vs := by
  rw [List.length_cons] at hfits
  have hremoved : (table n (v :: vs)).removeObject (keyAt n)
      = table (n + 1) vs := by
    refine Logical.Table.ext rfl rfl rfl ?_ (funext fun key => ?_)
    · show keyAt (n + (vs.length + 1)) = keyAt (n + 1 + vs.length)
      rw [Nat.add_right_comm, Nat.add_assoc]
    · show update _ _ none key = ((rows (n + 1) vs).lookup key).map cells
      unfold update
      split
      next hkey =>
        subst hkey
        have hnone : (rows (n + 1) vs).lookup (keyAt n) = none :=
          lookup_rows_eq_none (by omega) (by omega) (.inl (Nat.lt_succ_self n))
        rw [hnone]
        rfl
      next hkey =>
        show (((keyAt n, v) :: rows (n + 1) vs).lookup key).map cells = _
        rw [List.lookup_cons, beq_false_of_ne hkey]
  exact (perform_remove_only (links_table _ _) _).trans
    (congrArg only hremoved)

end Colonnade.Trial.Ledger
