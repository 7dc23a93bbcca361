/-
The handles that an arena has lent, all of them: those in use, with what
they stand for, and those that were given back (`Loan`). A run of uses goes
over the arena and over this list at once. On the list every use is what a
caller thinks it is: a handle is added that was not there before, or some
handles stand for something else, or for nothing. An arena that knows its
slots and no handles does the same (`Tracks`), so it is a map from handles,
and no handle is given out twice.

It is so for as long as handles can tell the slots apart, and the
generations of each slot. The generation of a slot is one above the number
of its handles that were given back (`generation_eq`); it comes round, and
an old handle would be taken for a new one, after 2^31 - 1 of them.

Chain: above `Boundary.Arena`; sessions lend out from three arenas.
-/
import Colonnade.Proofs.Boundary.Arena
import Mathlib.Data.List.Induction

namespace Colonnade.Boundary

variable {α : Type} {a : Arena α} {raw : Int64} {x y : α} {i : Nat}

-- ================================================================ loans

/-- A handle that was lent, and what it stands for; nothing once it was
given back. -/
structure Loan (α : Type) where
  handle : Int64
  value : Option α
deriving DecidableEq

namespace Loan

/-- Whether the handle was given back, and was for a slot. -/
def returned (i : Nat) (l : Loan α) : Bool :=
  l.value.isNone && Arena.index? l.handle == some i

/-- The loan after something else was put under a handle in use. -/
def put (raw : Int64) (v : Option α) (l : Loan α) : Loan α :=
  if l.handle = raw then { l with value := l.value.bind fun _ => v } else l

/-- The loan after all was given back that a test does not keep. -/
def keep (test : α → Bool) (l : Loan α) : Loan α :=
  { l with value := l.value.filter test }

/-- A change of loans by which nothing comes back into use. -/
structure Lapses (f : Loan α → Loan α) : Prop where
  handle_eq : ∀ l, (f l).handle = l.handle
  none : ∀ l, l.value = none → (f l).value = none

theorem lapses_put (raw : Int64) (v : Option α) :
    Lapses (put raw v) := by
  refine ⟨fun l => ?_, fun l hl => ?_⟩
  · unfold put
    split <;> rfl
  · unfold put
    split
    · exact congrArg (Option.bind · fun _ => v) hl
    · exact hl

/-- Keeping some loans makes the others lapse. -/
theorem lapses_keep (test : α → Bool) : Lapses (keep test) :=
  ⟨fun _ => rfl, fun _ hl => congrArg (Option.filter test) hl⟩

end Loan

/-- How many handles of a slot were given back. -/
def returns (loans : List (Loan α)) (i : Nat) : Nat :=
  loans.countP (Loan.returned i)

section Lapse

variable {loans : List (Loan α)} {f : Loan α → Loan α}

/-- A loan that was returned stays returned. -/
theorem returned_of_lapses (hf : Loan.Lapses f) {l : Loan α}
    (hl : l.returned i = true) : (f l).returned i = true := by
  unfold Loan.returned at hl ⊢
  rw [Bool.and_eq_true, Option.isNone_iff_eq_none] at hl ⊢
  rw [hf.handle_eq]
  exact ⟨hf.none l hl.1, hl.2⟩

/-- Lapsing makes no returns fewer. -/
theorem returns_le_map (hf : Loan.Lapses f) (loans : List (Loan α))
    (i : Nat) : returns loans i ≤ returns (loans.map f) i := by
  unfold returns
  rw [List.countP_map]
  exact List.countP_mono_left fun l _ hl => returned_of_lapses hf hl

/-- A handle that is given back adds to those of its slot. -/
theorem returns_lt_map (hf : Loan.Lapses f) {l : Loan α} (hl : l ∈ loans)
    (hx : l.value = some x) (hnone : (f l).value = none)
    (hi : Arena.index? l.handle = some i) :
    returns loans i < returns (loans.map f) i := by
  have hbefore : l.returned i = false := by
    unfold Loan.returned
    rw [hx]
    rfl
  have hafter : (f l).returned i = true := by
    unfold Loan.returned
    rw [hnone, hf.handle_eq, hi]
    exact beq_self_eq_true _
  obtain ⟨before, after, rfl⟩ := List.append_of_mem hl
  have hle := returns_le_map hf before i
  have hle' := returns_le_map hf after i
  unfold returns at hle hle' ⊢
  rw [List.map_append, List.map_cons, List.countP_append, List.countP_append,
    List.countP_cons_of_neg (by rw [hbefore]; exact Bool.false_ne_true),
    List.countP_cons_of_pos hafter]
  omega

end Lapse

-- ================================================================== uses

/-- What may be done to an arena. -/
inductive Use (α : Type) where
  | insert (x : α)
  | replace (raw : Int64) (x : α)
  | remove (raw : Int64)
  | retain (keep : α → Bool)

/-- An arena, and all that it has lent, first things first. -/
structure Lending (α : Type) where
  arena : Arena α := {}
  loans : List (Loan α) := []

namespace Lending

/-- A use, of the arena and of the list of loans. -/
def step (l : Lending α) : Use α → Lending α
  | .insert x =>
    ⟨(l.arena.insert x).2, l.loans ++ [⟨(l.arena.insert x).1, some x⟩]⟩
  | .replace raw x =>
    ⟨l.arena.replace raw x, l.loans.map (Loan.put raw (some x))⟩
  | .remove raw => ⟨(l.arena.remove raw).2, l.loans.map (Loan.put raw none)⟩
  | .retain keep => ⟨l.arena.retain keep, l.loans.map (Loan.keep keep)⟩

def through (l : Lending α) (uses : List (Use α)) : Lending α :=
  uses.foldl step l

end Lending

-- ============================================================== tracking

/-- Whether a loan is in its slot, or its slot has come further. -/
inductive Loan.Stands (a : Arena α) (l : Loan α) : Prop
  | past {i : Nat} {slot : ArenaSlot α}
      (hindex : Arena.index? l.handle = some i)
      (hslot : a.slots[i]? = some slot) (hnone : l.value = none)
      (hlt : Arena.generation l.handle < slot.generation)
  | held {i : Nat} {x : α} (hindex : Arena.index? l.handle = some i)
      (hslot : a.slots[i]? = some ⟨Arena.generation l.handle, some x⟩)
      (hx : l.value = some x)

/-- A loan goes by its own slot. -/
theorem Loan.Stands.frame {a' : Arena α} {l : Loan α} (h : l.Stands a)
    (hslots : ∀ j, Arena.index? l.handle = some j →
      a'.slots[j]? = a.slots[j]?) : l.Stands a' := by
  cases h with
  | past hindex hslot hnone hlt =>
      exact .past hindex ((hslots _ hindex).trans hslot) hnone hlt
  | held hindex hslot hx =>
      exact .held hindex ((hslots _ hindex).trans hslot) hx

/-- Whether an arena has in its slots what stands in a list of loans. -/
structure Tracks (a : Arena α) (loans : List (Loan α)) : Prop where
  formed : a.Formed
  handles_nodup : (loans.map (·.handle)).Nodup
  stands : ∀ l ∈ loans, l.Stands a
  held : ∀ raw x, a.get? raw = some x → ⟨raw, some x⟩ ∈ loans
  size_eq : a.size = loans.countP (·.value.isSome)
  generation_eq : ∀ (i : Nat) slot, a.slots[i]? = some slot →
    slot.generation = returns loans i + 1

theorem tracks_empty : Tracks ({} : Arena α) [] where
  formed := Arena.formed_empty
  handles_nodup := List.nodup_nil
  stands := nofun
  held raw x h := by
    obtain ⟨i, -, hslot⟩ := Arena.get?_eq_some.1 h
    cases hslot
  size_eq := rfl
  generation_eq _ _ h := nomatch h

namespace Tracks

variable {loans : List (Loan α)} {uses : List (Use α)}

/-- An arena answers for the loans that are out. -/
theorem get?_iff (h : Tracks a loans) :
    a.get? raw = some x ↔ ⟨raw, some x⟩ ∈ loans := by
  refine ⟨h.held raw x, fun hl => ?_⟩
  cases h.stands _ hl with
  | past _ _ hnone _ => cases hnone
  | held hindex hslot hx =>
      cases hx
      exact Arena.get?_eq_some.2 ⟨_, hindex, hslot⟩

/-- A handle is on the list once, and what is put under it is put there. -/
theorem split (h : Tracks a loans) (hl : ⟨raw, some x⟩ ∈ loans) :
    ∃ before after, loans = before ++ ⟨raw, some x⟩ :: after
      ∧ ∀ v, loans.map (Loan.put raw v) = before ++ ⟨raw, v⟩ :: after := by
  obtain ⟨before, after, rfl⟩ := List.append_of_mem hl
  have hnodup := h.handles_nodup
  rw [List.map_append, List.map_cons, List.nodup_append,
    List.nodup_cons] at hnodup
  obtain ⟨-, ⟨hafter, -⟩, hapart⟩ := hnodup
  have hbefore : raw ∉ before.map (·.handle) := fun hmem =>
    hapart raw hmem raw (.head _) rfl
  have hother {part : List (Loan α)} (hpart : raw ∉ part.map (·.handle))
      (v : Option α) : part.map (Loan.put raw v) = part := by
    refine (List.map_congr_left fun l hl => if_neg fun heq => ?_).trans
      (List.map_id _)
    exact hpart (heq ▸ List.mem_map_of_mem hl)
  have hself (v : Option α) :
      Loan.put raw v ⟨raw, some x⟩ = ⟨raw, v⟩ := if_pos rfl
  refine ⟨before, after, rfl, fun v => ?_⟩
  rw [List.map_append, List.map_cons, hother hbefore, hother hafter, hself]

/-- Nothing changes on the list under a handle that is not in use. -/
theorem map_put_of_none (h : Tracks a loans) (hnone : a.get? raw = none)
    (v : Option α) : loans.map (Loan.put raw v) = loans := by
  refine (List.map_congr_left fun l hl => ?_).trans (List.map_id _)
  unfold Loan.put
  split
  next heq =>
    obtain ⟨handle, value⟩ := l
    obtain rfl : handle = raw := heq
    cases value with
    | none => rfl
    | some z =>
        have hget := h.get?_iff.2 hl
        rw [hnone] at hget
        cases hget
  next => rfl

/-- A loan is for a slot that is there. -/
theorem slot_of_mem (h : Tracks a loans) {l : Loan α} (hl : l ∈ loans) :
    ∃ i slot, Arena.index? l.handle = some i
      ∧ a.slots[i]? = some slot := by
  cases h.stands l hl with
  | past hindex hslot => exact ⟨_, _, hindex, hslot⟩
  | held hindex hslot => exact ⟨_, _, hindex, hslot⟩

/-- A slot that is not in use has come further than its loans. -/
theorem generation_lt (h : Tracks a loans) {g : Nat}
    (hvacant : a.slots[i]? = some ⟨g, none⟩ ∨ i = a.slots.size ∧ g = 1)
    {l : Loan α} (hl : l ∈ loans) (hi : Arena.index? l.handle = some i) :
    l.value = none ∧ Arena.generation l.handle < g := by
  rcases hvacant with hvacant | ⟨rfl, -⟩
  · cases h.stands l hl with
    | past hindex hslot hnone hlt =>
        obtain rfl := Option.some.inj (hindex.symm.trans hi)
        obtain rfl := Option.some.inj (hslot.symm.trans hvacant)
        exact ⟨hnone, hlt⟩
    | held hindex hslot =>
        obtain rfl := Option.some.inj (hindex.symm.trans hi)
        cases hslot.symm.trans hvacant
  · obtain ⟨j, slot, hj, hslot⟩ := h.slot_of_mem hl
    obtain rfl := Option.some.inj (hj.symm.trans hi)
    rw [Array.getElem?_size] at hslot
    cases hslot

/-- A slot that is new has no loans. -/
theorem returns_size (h : Tracks a loans) :
    returns loans a.slots.size = 0 := by
  refine List.countP_eq_zero.2 fun l hl hreturned => ?_
  obtain ⟨i, slot, hindex, hslot⟩ := h.slot_of_mem hl
  unfold Loan.returned at hreturned
  rw [Bool.and_eq_true, hindex, beq_iff_eq, Option.some.injEq] at hreturned
  rw [hreturned.2, Array.getElem?_size] at hslot
  cases hslot

/-- What is inserted gets a handle that was never lent. -/
theorem insert (h : Tracks a loans) (x : α)
    (hslots : (a.insert x).2.slots.size ≤ Arena.slotCount) :
    Tracks (a.insert x).2 (loans ++ [⟨(a.insert x).1, some x⟩]) := by
  obtain ⟨i, g, hraw, hfills⟩ := h.formed.insert x
  have hself := (hfills.slots_eq i).trans (if_pos rfl)
  obtain ⟨hpos, hg⟩ := hfills.formed.generation_fits i _ hself
  obtain ⟨hlt, -⟩ := Array.getElem?_eq_some_iff.1 hself
  obtain ⟨-, hindex, hgen⟩ :=
    Arena.parts_pack hpos hg (Nat.lt_of_lt_of_le hlt hslots)
  have hother {j : Nat} (hj : j ≠ i) :
      (a.insert x).2.slots[j]? = a.slots[j]? :=
    (hfills.slots_eq j).trans (if_neg hj)
  have hreturns (j : Nat) :
      returns (loans ++ [⟨Arena.pack g i, some x⟩]) j = returns loans j := by
    unfold returns
    rw [List.countP_append]
    rfl
  rw [hraw]
  refine ⟨hfills.formed, ?_, fun l hl => ?_, fun raw y hy => ?_, ?_,
    fun j slot hslot => ?_⟩
  · rw [List.map_append, List.map_singleton]
    refine List.nodup_append.2 ⟨h.handles_nodup, List.nodup_singleton _, ?_⟩
    rintro _ hmem _ hsingle rfl
    obtain ⟨l, hl, heq⟩ := List.mem_map.1 hmem
    rw [List.mem_singleton.1 hsingle] at heq
    have hbelow := h.generation_lt hfills.vacant hl (heq ▸ hindex)
    rw [heq, hgen] at hbelow
    exact Nat.lt_irrefl _ hbelow.2
  -- an earlier loan of the slot is over, one of another slot is as it was
  · rcases List.mem_append.1 hl with hl | hl
    · by_cases hi : Arena.index? l.handle = some i
      · obtain ⟨hnone, hlt⟩ := h.generation_lt hfills.vacant hl hi
        exact .past hi hself hnone hlt
      · exact (h.stands l hl).frame fun j hj =>
          hother fun heq => hi (heq ▸ hj)
    · obtain rfl := List.mem_singleton.1 hl
      exact .held hindex (hgen.symm ▸ hself) rfl
  · obtain ⟨j, hj, hslot⟩ := Arena.get?_eq_some.1 hy
    refine List.mem_append.2 ?_
    by_cases heq : j = i
    · subst heq
      cases hself.symm.trans hslot
      right
      rw [← (Arena.eq_pack_of_index? hj).1]
      exact .head _
    · rw [hother heq] at hslot
      exact .inl (h.held raw y (Arena.get?_eq_some.2 ⟨j, hj, hslot⟩))
  · rw [hfills.size_eq, h.size_eq, List.countP_append]
    rfl
  · rw [hreturns]
    by_cases heq : j = i
    · subst heq
      cases hself.symm.trans hslot
      rcases hfills.vacant with hvacant | ⟨rfl, rfl⟩
      · exact h.generation_eq j ⟨g, none⟩ hvacant
      · rw [h.returns_size]
    · exact h.generation_eq j slot ((hother heq).symm.trans hslot)

section Put

variable {a' : Arena α} {v : Option α} {g : Nat}

/-- If nothing is put under a handle in use, one more was given back. -/
theorem returns_put (h : Tracks a loans) (hl : ⟨raw, some x⟩ ∈ loans)
    (hindex : Arena.index? raw = some i) (v : Option α) (j : Nat) :
    returns (loans.map (Loan.put raw v)) j
      = returns loans j + if j = i then v.isNone.toNat else 0 := by
  obtain ⟨before, after, hloans, hmap⟩ := h.split hl
  have hreturned (w : Option α) :
      Loan.returned j ⟨raw, w⟩ = (w.isNone && decide (j = i)) := by
    simp only [Loan.returned, hindex, beq_eq_decide, Option.some.injEq,
      eq_comm]
  rw [hmap, hloans]
  unfold returns
  rw [List.countP_append, List.countP_append, List.countP_cons,
    List.countP_cons, hreturned, hreturned]
  by_cases hj : j = i
  · cases v <;> simp [hj]
    omega
  · cases v <;> simp [hj]

/-- And one less is in use. -/
theorem countP_put (h : Tracks a loans) (hl : ⟨raw, some x⟩ ∈ loans)
    (v : Option α) :
    (loans.map (Loan.put raw v)).countP (·.value.isSome) + v.isNone.toNat
      = loans.countP (·.value.isSome) := by
  obtain ⟨before, after, hloans, hmap⟩ := h.split hl
  rw [hmap, hloans, List.countP_append, List.countP_cons, List.countP_append,
    List.countP_cons]
  cases v <;> simp
  omega

/-- The loan has in its slot what was put there, or its slot has come
further; the others are as before. -/
theorem stands_put (h : Tracks a loans)
    (hindex : Arena.index? raw = some i)
    (hslot : a.slots[i]? = some ⟨Arena.generation raw, some x⟩)
    (hslots : ∀ j : Nat, a'.slots[j]?
      = if j = i then some ⟨g, v⟩ else a.slots[j]?)
    (hg : g = Arena.generation raw + v.isNone.toNat) {l : Loan α}
    (hl : l ∈ loans) : (Loan.put raw v l).Stands a' := by
  have hself : a'.slots[i]? = some ⟨g, v⟩ := (hslots i).trans (if_pos rfl)
  by_cases heq : l.handle = raw
  · subst hg heq
    cases h.stands l hl with
    | past hj hslot' hnone hlt =>
        obtain rfl := Option.some.inj (hj.symm.trans hindex)
        cases hslot.symm.trans hslot'
        exact absurd hlt (Nat.lt_irrefl _)
    | held hj hslot' hx =>
        have hput : Loan.put l.handle v l = { l with value := v } := by
          unfold Loan.put
          rw [if_pos rfl, hx]
          rfl
        rw [hput]
        cases v with
        | none => exact .past hindex hself rfl (Nat.lt_succ_self _)
        | some y => exact .held hindex hself rfl
  · rw [show Loan.put raw v l = l from if_neg heq]
    by_cases hi : Arena.index? l.handle = some i
    · cases h.stands l hl with
      | past hj hslot' hnone hlt =>
          obtain rfl := Option.some.inj (hj.symm.trans hi)
          cases hslot.symm.trans hslot'
          exact .past hi hself hnone (hg ▸ Nat.lt_add_right _ hlt)
      | held hj hslot' =>
          obtain rfl := Option.some.inj (hj.symm.trans hi)
          have hgen := Option.some.inj (hslot'.symm.trans hslot)
          exact (heq (Arena.eq_of_index? hi hindex
            (congrArg ArenaSlot.generation hgen))).elim
    · refine (h.stands l hl).frame fun j hj => (hslots j).trans (if_neg ?_)
      rintro rfl
      exact hi hj

/-- What is put under a handle in use stands there, and if that is nothing
the slot comes further. -/
theorem put (h : Tracks a loans) (hindex : Arena.index? raw = some i)
    (hslot : a.slots[i]? = some ⟨Arena.generation raw, some x⟩)
    (hslots : ∀ j : Nat, a'.slots[j]?
      = if j = i then some ⟨g, v⟩ else a.slots[j]?)
    (hg : g = Arena.generation raw + v.isNone.toNat)
    (hsize : a'.size + v.isNone.toNat = a.size) (hformed : a'.Formed) :
    Tracks a' (loans.map (Loan.put raw v)) := by
  have hl : ⟨raw, some x⟩ ∈ loans :=
    h.held raw x (Arena.get?_eq_some.2 ⟨i, hindex, hslot⟩)
  have hself : a'.slots[i]? = some ⟨g, v⟩ := (hslots i).trans (if_pos rfl)
  have hother {j : Nat} (hj : j ≠ i) : a'.slots[j]? = a.slots[j]? :=
    (hslots j).trans (if_neg hj)
  refine ⟨hformed, ?_, fun l hl => ?_, fun raw' y hy => ?_, ?_,
    fun j slot hj => ?_⟩
  · rw [List.map_map]
    exact (List.map_congr_left fun l _ =>
      (Loan.lapses_put raw v).handle_eq l) ▸ h.handles_nodup
  -- every loan stands as before, but for the one that is put
  · obtain ⟨l, hold, rfl⟩ := List.mem_map.1 hl
    exact h.stands_put hindex hslot hslots hg hold
  · obtain ⟨j, hj, hslot'⟩ := Arena.get?_eq_some.1 hy
    by_cases heq : j = i
    · subst heq
      cases hself.symm.trans hslot'
      obtain rfl := Arena.eq_of_index? hj hindex hg
      exact List.mem_map.2 ⟨_, hl, if_pos rfl⟩
    · rw [hother heq] at hslot'
      have hraw : raw' ≠ raw := by
        rintro rfl
        exact heq (Option.some.inj (hj.symm.trans hindex))
      have hold := h.held raw' y (Arena.get?_eq_some.2 ⟨j, hj, hslot'⟩)
      exact List.mem_map.2 ⟨_, hold, if_neg hraw⟩
  · have hcount := h.countP_put hl v
    rw [← h.size_eq] at hcount
    omega
  · rw [h.returns_put hl hindex v]
    by_cases heq : j = i
    · subst heq
      cases hself.symm.trans hj
      have hbefore := h.generation_eq j _ hslot
      dsimp only at hbefore ⊢
      rw [if_pos rfl]
      omega
    · rw [if_neg heq]
      exact h.generation_eq j slot ((hother heq).symm.trans hj)

end Put

/-- What is lent under a number may be replaced. -/
theorem replace (h : Tracks a loans) (raw : Int64) (y : α) :
    Tracks (a.replace raw y) (loans.map (Loan.put raw (some y))) := by
  rcases a.replace_cases raw y with
    ⟨hnone, heq⟩ | ⟨i, x, hindex, hslot, heq⟩
  · rw [heq, h.map_put_of_none hnone]
    exact h
  · have hslots := Arena.getElem?_put hslot ⟨Arena.generation raw, some y⟩
    rw [heq]
    exact h.put hindex hslot hslots rfl rfl (h.formed.replaced hslot y)

/-- A handle that is given back is not in use any more, unless its slot had
its last generation. -/
theorem remove (h : Tracks a loans)
    (hlast : ∀ x, a.get? raw = some x →
      Arena.generation raw + 1 < Arena.generationCount) :
    Tracks (a.remove raw).2 (loans.map (Loan.put raw none)) := by
  rcases a.remove_cases raw with
    ⟨hnone, heq⟩ | ⟨i, x, hindex, hx, -, hvacates⟩
  · rw [heq, h.map_put_of_none hnone]
    exact h
  · have hnext := Arena.nextGeneration_of_lt (hlast x hx)
    have hsize : (a.remove raw).2.size + 1 = a.size := by
      have hpos : 0 < loans.countP (·.value.isSome) :=
        List.countP_pos_iff.2 ⟨_, h.get?_iff.1 hx, rfl⟩
      rw [hvacates.size_eq, h.size_eq]
      omega
    exact h.put hindex hvacates.occupied hvacates.slots_eq hnext hsize
      (hvacates.formed h.formed)

/-- The same of several handles, one after the other. -/
theorem removeAll (h : Tracks a loans) {handles : List Int64}
    (hlast : ∀ raw ∈ handles,
      Arena.generation raw + 1 < Arena.generationCount) :
    Tracks (handles.foldl (fun a raw => (a.remove raw).2) a)
      (loans.map fun l =>
        if l.handle ∈ handles then { l with value := none } else l) := by
  induction handles generalizing a loans with
  | nil =>
      have hid : (loans.map fun l =>
          if l.handle ∈ [] then { l with value := none } else l) = loans :=
        (List.map_congr_left fun l _ => if_neg List.not_mem_nil).trans
          (List.map_id _)
      rw [hid]
      exact h
  | cons raw rest ih =>
      obtain ⟨hraw, hrest⟩ := List.forall_mem_cons.1 hlast
      have hremoved := ih (h.remove fun _ _ => hraw) hrest
      rw [List.map_map] at hremoved
      have hcongr : (loans.map fun l =>
            if l.handle ∈ raw :: rest then { l with value := none } else l)
          = loans.map ((fun l => if l.handle ∈ rest
            then { l with value := none } else l) ∘ Loan.put raw none) := by
        refine List.map_congr_left fun l _ => ?_
        obtain ⟨handle, value⟩ := l
        unfold Loan.put
        by_cases heq : handle = raw
        · cases value <;> simp [heq]
        · simp [heq]
      rw [hcongr]
      exact hremoved

/-- What a test keeps stays in use, and all else is given back. -/
theorem retain (h : Tracks a loans) {keep : α → Bool}
    (hslots : a.slots.size ≤ Arena.slotCount)
    (hlast : ∀ raw x, a.get? raw = some x → keep x = false →
      Arena.generation raw + 1 < Arena.generationCount) :
    Tracks (a.retain keep) (loans.map (Loan.keep keep)) := by
  have hmem {raw : Int64} : raw ∈ a.dropped keep
      ↔ ∃ x, a.get? raw = some x ∧ keep x = false :=
    h.formed.mem_dropped hslots
  have hdropped : ∀ raw ∈ a.dropped keep,
      Arena.generation raw + 1 < Arena.generationCount := by
    intro raw hraw
    obtain ⟨x, hx, hkeep⟩ := hmem.1 hraw
    exact hlast raw x hx hkeep
  have hcongr : loans.map (Loan.keep keep) = loans.map fun l =>
      if l.handle ∈ a.dropped keep then { l with value := none } else l := by
    refine List.map_congr_left fun l hl => ?_
    obtain ⟨handle, _ | x⟩ := l
    · exact (ite_self _).symm
    have hx : a.get? handle = some x := h.get?_iff.2 hl
    unfold Loan.keep
    dsimp only
    cases hkeep : keep x with
    | false =>
        rw [if_pos (hmem.2 ⟨x, hx, hkeep⟩), Option.filter_some_neg hkeep]
    | true =>
        have hstays : handle ∉ a.dropped keep := by
          intro hdrop
          obtain ⟨z, hz, hfails⟩ := hmem.1 hdrop
          obtain rfl := Option.some.inj (hx.symm.trans hz)
          rw [hkeep] at hfails
          cases hfails
        rw [if_neg hstays, Option.filter_some_pos hkeep]
  rw [a.retain_eq, hcongr]
  exact h.removeAll hdropped

-- ================================================================= runs

/-- A slot whose handles have not all been lent has a generation left. -/
theorem generation_left (h : Tracks a loans) {f : Loan α → Loan α}
    (hf : Loan.Lapses f) (hx : a.get? raw = some x)
    (hnone : (f ⟨raw, some x⟩).value = none)
    (hfew : ∀ i, returns (loans.map f) i ≤ Arena.generationCount - 2) :
    Arena.generation raw + 1 < Arena.generationCount := by
  obtain ⟨i, hindex, hslot⟩ := Arena.get?_eq_some.1 hx
  have hgeneration := h.generation_eq i _ hslot
  have hlt := returns_lt_map hf (h.get?_iff.1 hx) rfl hnone hindex
  have hle := hfew i
  have hcount : 2 ≤ Arena.generationCount := by decide
  dsimp only at hgeneration
  omega

/-- Every use keeps track of the loans, while there are slots and generations.
-/
theorem step {l : Lending α} (h : Tracks l.arena l.loans) (u : Use α)
    (hslots : (l.step u).arena.slots.size ≤ Arena.slotCount)
    (hfew : ∀ i, returns (l.step u).loans i ≤ Arena.generationCount - 2) :
    Tracks (l.step u).arena (l.step u).loans := by
  cases u with
  | insert x => exact h.insert x hslots
  | replace raw y => exact h.replace raw y
  | remove raw =>
      refine h.remove fun x hx => ?_
      exact h.generation_left (Loan.lapses_put raw none) hx
        (congrArg Loan.value (if_pos rfl)) hfew
  | retain keep =>
      have hsize : l.arena.slots.size ≤ Arena.slotCount :=
        (l.arena.slots_size_retain keep).symm ▸ hslots
      refine h.retain hsize fun raw x hx hkeep => ?_
      refine h.generation_left (Loan.lapses_keep keep) hx ?_ hfew
      exact Option.filter_some_neg hkeep

end Tracks

namespace Lending

variable {uses : List (Use α)}

/-- A use makes no slots fewer. -/
theorem slots_size_step (l : Lending α) (u : Use α) :
    l.arena.slots.size ≤ (l.step u).arena.slots.size := by
  cases u with
  | insert x => exact l.arena.slots_size_insert x
  | replace raw y =>
      rcases l.arena.replace_cases raw y with
        ⟨-, heq⟩ | ⟨i, x, -, -, heq⟩
      · exact Nat.le_of_eq (congrArg (·.slots.size) heq.symm)
      · refine Nat.le_of_eq (Eq.trans ?_ (congrArg (·.slots.size) heq.symm))
        exact Array.size_setIfInBounds.symm
  | remove raw => exact Nat.le_of_eq (l.arena.slots_size_remove raw).symm
  | retain keep => exact Nat.le_of_eq (l.arena.slots_size_retain keep).symm

/-- A use makes no returns fewer. -/
theorem returns_step (l : Lending α) (u : Use α) (i : Nat) :
    returns l.loans i ≤ returns (l.step u).loans i := by
  cases u with
  | insert x =>
      show returns l.loans i ≤ returns (l.loans ++ _) i
      unfold returns
      rw [List.countP_append]
      exact Nat.le_add_right _ _
  | replace raw y => exact returns_le_map (Loan.lapses_put raw _) _ i
  | remove raw => exact returns_le_map (Loan.lapses_put raw _) _ i
  | retain keep => exact returns_le_map (Loan.lapses_keep keep) _ i

/-- Whether all handles of a lending can be told apart: there are no more
slots than a handle can name, and none was given back more often than it has
generations to go through. -/
structure Distinct (l : Lending α) : Prop where
  slots : l.arena.slots.size ≤ Arena.slotCount
  returns : ∀ i, returns l.loans i ≤ Arena.generationCount - 2

/-- Every run of distinct numbers keeps track of the loans. -/
theorem tracks_through (h : Distinct (through {} uses)) :
    Tracks (through {} uses).arena (through {} uses).loans := by
  induction uses using List.reverseRecOn with
  | nil => exact tracks_empty
  | append_singleton before u ih =>
      have happend : through ({} : Lending α) (before ++ [u])
          = (through {} before).step u := List.foldl_append
      rw [happend] at h ⊢
      have hbefore : Distinct (through ({} : Lending α) before) :=
        ⟨Nat.le_trans (slots_size_step _ u) h.slots, fun i =>
          Nat.le_trans (returns_step _ u i) (h.returns i)⟩
      exact (ih hbefore).step u h.slots h.returns

/-- Whether an arena is a map from the handles in use to what they stand
for, and has lent no handle twice. -/
structure IsMap (l : Lending α) : Prop where
  positive : ∀ loan ∈ l.loans, 0 < loan.handle
  fresh : (l.loans.map (·.handle)).Nodup
  get?_iff : ∀ raw x, l.arena.get? raw = some x ↔ ⟨raw, some x⟩ ∈ l.loans
  contains_iff : ∀ raw,
    l.arena.contains raw = true ↔ ∃ x, ⟨raw, some x⟩ ∈ l.loans
  remove_eq : ∀ raw, (l.arena.remove raw).1 = l.arena.get? raw
  size_eq : l.arena.size = l.loans.countP (·.value.isSome)

/-- After every run from an empty arena, as long as its handles can be told
apart, each handle that was lent is above zero and was lent once; any
integer finds what the handle stands for that it is, as it was put there
last, and nothing if it is no handle in use; and the size is the number of
handles in use. What inserting answers is the handle of the loan that it
adds; replacing and removing change the loan of one handle, and retaining
those that the test does not keep, and no others. -/
theorem map_with_fresh_handles (uses : List (Use α))
    (h : Distinct (through {} uses)) : IsMap (through {} uses) := by
  have htracks := tracks_through h
  refine ⟨fun loan hloan => ?_, htracks.handles_nodup,
    fun raw x => htracks.get?_iff, fun raw => ?_, fun raw => ?_,
    htracks.size_eq⟩
  · obtain ⟨i, -, hindex, -⟩ := htracks.slot_of_mem hloan
    exact (Arena.index?_eq_some.1 hindex).1
  · unfold Arena.contains
    rw [Option.isSome_iff_exists]
    exact exists_congr fun x => htracks.get?_iff
  · rcases (through {} uses).arena.remove_cases raw with
      ⟨hnone, heq⟩ | ⟨_, x, -, hx, heq, -⟩
    · rw [hnone, heq]
    · rw [hx, heq]

/-- Two values are put in and the first is taken out; a third goes into its
slot, the second is replaced, and only what is below 8 is kept. -/
def reusesSlot : List (Use Nat) :=
  [.insert 5, .insert 6, .remove (Arena.pack 1 0), .insert 7,
    .replace (Arena.pack 1 1) 8, .retain (· < 8)]

/-- The first handle and the third are for one slot, and they are two. -/
theorem map_with_fresh_handles_reusesSlot :
    let l := through {} reusesSlot
    Distinct l ∧ IsMap l
      ∧ l.loans = [⟨Arena.pack 1 0, none⟩, ⟨Arena.pack 1 1, none⟩,
        ⟨Arena.pack 2 0, some 7⟩] := by
  intro l
  have hloans : l.loans = [⟨Arena.pack 1 0, none⟩, ⟨Arena.pack 1 1, none⟩,
      ⟨Arena.pack 2 0, some 7⟩] := by decide +kernel
  have hdistinct : Distinct l := by
    refine ⟨by decide +kernel, fun i => ?_⟩
    have hle : returns l.loans i ≤ l.loans.length := List.countP_le_length
    rw [hloans] at hle ⊢
    exact Nat.le_trans hle (by decide)
  exact ⟨hdistinct, map_with_fresh_handles reusesSlot hdistinct, hloans⟩

end Lending

end Colonnade.Boundary
