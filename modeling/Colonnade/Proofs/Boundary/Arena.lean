/-
Arenas, slot by slot. An integer above zero is a generation and the number
of a slot, and every such integer is the handle of exactly one pair of the
two (`eq_pack_of_index?`); so an integer finds a slot only if it is the
handle that the slot has now.

A slot is free or has an occupant, and the stack of free slots holds each
free one once (`Formed`). What is lent goes into a slot that is free or new,
and nothing is ever put over an occupant. This does not depend on how often
a slot was used: generations come round, but they stay above zero.

Chain: `Boundary.Loans` follows the handles, `Boundary.Writers` the
transactions that a session has lent out.
-/
import Colonnade.Boundary.Arena
import Mathlib.Data.List.Nodup

namespace Colonnade.Boundary.Arena

variable {α : Type} {a : Arena α} {raw : Int64} {g i : Nat} {x : α}
  {slot slot' : ArenaSlot α}

-- ====================================================== handles as words

/-- A positive number leads to the slot that its lower part names. -/
theorem index?_eq_some :
    index? raw = some i ↔ 0 < raw ∧ raw.toInt.toNat % slotCount = i := by
  unfold index?
  split
  next hle => exact ⟨nofun, fun h => (Int64.not_lt.2 hle h.1).elim⟩
  next hlt =>
    rw [Option.some.injEq]
    exact (and_iff_right (Int64.not_le.1 hlt)).symm

/-- The upper part of a positive number is its generation. -/
theorem generation_of_pos (h : 0 < raw) :
    generation raw = raw.toInt.toNat / slotCount := by
  have hle : 0 ≤ raw := Int64.le_of_lt h
  have hword : raw.toUInt64.toNat = raw.toInt.toNat :=
    Int64.toNat_toUInt64_of_le hle
  have hlt : raw.toInt.toNat < 2 ^ 63 := by
    have := raw.toInt_lt
    omega
  unfold generation
  rw [hword]
  refine Nat.mod_eq_of_lt ?_
  unfold slotCount generationCount
  omega

/-- An integer that names a slot is the handle for it at a generation. -/
theorem eq_pack_of_index? (h : index? raw = some i) :
    raw = pack (generation raw) i ∧ i < slotCount := by
  obtain ⟨hpos, rfl⟩ := index?_eq_some.1 h
  refine ⟨?_, Nat.mod_lt _ (by decide)⟩
  unfold pack
  rw [generation_of_pos hpos, Nat.mod_mod, Nat.mul_comm, Nat.div_add_mod]
  exact (Int64.ofNat_toNatClampNeg raw (Int64.le_of_lt hpos)).symm

/-- Two handles of one slot at one generation are the same. -/
theorem eq_of_index? {raw raw' : Int64} (h : index? raw = some i)
    (h' : index? raw' = some i) (hg : generation raw = generation raw') :
    raw = raw' := by
  rw [(eq_pack_of_index? h).1, hg, ← (eq_pack_of_index? h').1]

/-- A slot and a generation are packed without loss. -/
theorem toInt_pack (hg : g < generationCount) (hi : i < slotCount) :
    (pack g i).toInt = (g * slotCount + i : Nat) := by
  have hlt : g * slotCount + i < 2 ^ 63 := by
    unfold slotCount generationCount at *
    omega
  unfold pack
  rw [Nat.mod_eq_of_lt hi, Int64.toInt_ofNat_of_lt hlt]

/-- A handle is above zero, and says what it was made of. -/
theorem parts_pack (hpos : 0 < g) (hg : g < generationCount)
    (hi : i < slotCount) :
    0 < pack g i ∧ index? (pack g i) = some i
      ∧ generation (pack g i) = g := by
  have hint := toInt_pack hg hi
  have hword : 0 < pack g i := by
    have : 0 < g * slotCount := Nat.mul_pos hpos (by decide)
    rw [Int64.lt_iff_toInt_lt, hint, Int64.toInt_zero]
    omega
  have hmod : (g * slotCount + i) % slotCount = i := by
    rw [Nat.mul_comm, Nat.mul_add_mod, Nat.mod_eq_of_lt hi]
  have hdiv : (g * slotCount + i) / slotCount = g := by
    rw [Nat.mul_comm, Nat.mul_add_div (by decide), Nat.div_eq_of_lt hi]
    rfl
  refine ⟨hword, index?_eq_some.2 ⟨hword, ?_⟩, ?_⟩
  · rw [hint]
    exact hmod
  · rw [generation_of_pos hword, hint]
    exact hdiv

/-- The next generation is one that numbers can carry, and never the zeroth.
-/
theorem nextGeneration_fits (g : Nat) :
    0 < nextGeneration g ∧ nextGeneration g < generationCount := by
  have hlt : (g + 1) % generationCount < generationCount :=
    Nat.mod_lt _ (by decide)
  unfold nextGeneration
  dsimp only
  split
  next => exact ⟨Nat.one_pos, by decide⟩
  next hne => exact ⟨Nat.pos_of_ne_zero hne, hlt⟩

theorem nextGeneration_of_lt (h : g + 1 < generationCount) :
    nextGeneration g = g + 1 := by
  unfold nextGeneration
  dsimp only
  rw [Nat.mod_eq_of_lt h, if_neg (Nat.succ_ne_zero g)]

-- ==================================================== slots and occupants

/-- What is in a slot. -/
def occupant? (a : Arena α) (i : Nat) : Option α :=
  a.slots[i]? >>= (·.value)

/-- A slot is occupied where there is something in it. -/
theorem occupant?_eq_some :
    a.occupant? i = some x ↔ ∃ g, a.slots[i]? = some ⟨g, some x⟩ := by
  unfold occupant?
  cases hslot : a.slots[i]? with
  | none => exact ⟨nofun, nofun⟩
  | some slot =>
      obtain ⟨g, value⟩ := slot
      constructor
      · intro h
        obtain rfl : value = some x := h
        exact ⟨g, rfl⟩
      · rintro ⟨_, h⟩
        cases h
        rfl

/-- A slot is found if its generation is the one that the number carries. -/
theorem find?_eq_some :
    a.find? raw = some (i, slot)
      ↔ index? raw = some i ∧ a.slots[i]? = some slot
        ∧ slot.generation = generation raw := by
  unfold find?
  cases hindex : index? raw with
  | none => exact ⟨nofun, nofun⟩
  | some k =>
      dsimp only [bind, Option.bind]
      rw [Option.some.injEq]
      cases hslot : a.slots[k]? with
      | none =>
          refine ⟨nofun, ?_⟩
          rintro ⟨rfl, h, -⟩
          rw [hslot] at h
          cases h
      | some found =>
          dsimp only
          constructor
          · intro h
            split at h
            next hgen =>
              cases h
              exact ⟨rfl, hslot, hgen⟩
            next => cases h
          · rintro ⟨rfl, h, hgen⟩
            rw [hslot] at h
            cases h
            rw [if_pos hgen]

/-- A number leads to what is in its slot under its generation. -/
theorem get?_eq_some :
    a.get? raw = some x
      ↔ ∃ i, index? raw = some i
        ∧ a.slots[i]? = some ⟨generation raw, some x⟩ := by
  unfold get?
  cases hfind : a.find? raw with
  | none =>
      refine ⟨nofun, ?_⟩
      rintro ⟨i, hindex, hslot⟩
      have := find?_eq_some.2 ⟨hindex, hslot, rfl⟩
      rw [hfind] at this
      cases this
  | some found =>
      obtain ⟨k, slot⟩ := found
      obtain ⟨hindex, hslot, hgen⟩ := find?_eq_some.1 hfind
      obtain ⟨g, value⟩ := slot
      obtain rfl : g = generation raw := hgen
      show value = some x ↔ _
      constructor
      · rintro rfl
        exact ⟨k, hindex, hslot⟩
      · rintro ⟨i, hi, h⟩
        rw [hindex] at hi
        cases hi
        rw [hslot] at h
        cases h
        rfl

/-- What a handle reaches is in a slot. -/
theorem occupant?_of_get? (h : a.get? raw = some x) :
    ∃ i, index? raw = some i ∧ a.occupant? i = some x := by
  obtain ⟨i, hindex, hslot⟩ := get?_eq_some.1 h
  exact ⟨i, hindex, occupant?_eq_some.2 ⟨_, hslot⟩⟩

-- ============================================================ well-formed

/-- Whether the free slots are those without an occupant, and each slot has
a generation that can be told. -/
structure Formed (a : Arena α) : Prop where
  free_nodup : a.free.Nodup
  mem_free : ∀ i : Nat, i ∈ a.free ↔ ∃ g, a.slots[i]? = some ⟨g, none⟩
  generation_fits : ∀ (i : Nat) slot, a.slots[i]? = some slot →
    0 < slot.generation ∧ slot.generation < generationCount

theorem formed_empty : Formed ({} : Arena α) where
  free_nodup := List.nodup_nil
  mem_free _ := ⟨nofun, nofun⟩
  generation_fits _ _ h := nomatch h

/-- With few enough slots, what is in one is reached by the handle for it. -/
theorem Formed.get?_pack (h : a.Formed) (hslots : a.slots.size ≤ slotCount)
    (hslot : a.slots[i]? = some ⟨g, some x⟩) : a.get? (pack g i) = some x := by
  obtain ⟨hpos, hg⟩ := h.generation_fits i _ hslot
  obtain ⟨hlt, -⟩ := Array.getElem?_eq_some_iff.1 hslot
  obtain ⟨-, hindex, hgen⟩ := parts_pack hpos hg (Nat.lt_of_lt_of_le hlt hslots)
  exact get?_eq_some.2 ⟨i, hindex, hgen.symm ▸ hslot⟩

/-- What is in a slot can be got under some number. -/
theorem Formed.get?_of_occupant? (h : a.Formed)
    (hslots : a.slots.size ≤ slotCount) (hi : a.occupant? i = some x) :
    ∃ raw, a.get? raw = some x := by
  obtain ⟨g, hslot⟩ := occupant?_eq_some.1 hi
  exact ⟨pack g i, h.get?_pack hslots hslot⟩

/-- A slot that is put in place is there, and the others as before. -/
theorem getElem?_put (h : a.slots[i]? = some slot') (slot : ArenaSlot α)
    (j : Nat) :
    (a.slots.setIfInBounds i slot)[j]?
      = if j = i then some slot else a.slots[j]? := by
  obtain ⟨hlt, -⟩ := Array.getElem?_eq_some_iff.1 h
  rw [Array.getElem?_setIfInBounds]
  by_cases heq : j = i
  · rw [if_pos heq.symm, if_pos heq, if_pos (heq ▸ hlt)]
  · rw [if_neg (Ne.symm heq), if_neg heq]

/-- An arena with something put into a slot that was free or is new. -/
structure Fills (a : Arena α) (i g : Nat) (x : α) (a' : Arena α) : Prop where
  vacant : a.slots[i]? = some ⟨g, none⟩ ∨ i = a.slots.size ∧ g = 1
  slots_eq : ∀ j : Nat, a'.slots[j]? = if j = i then some ⟨g, some x⟩
    else a.slots[j]?
  size_eq : a'.size = a.size + 1
  formed : a'.Formed

/-- If no slot is free, a new one is filled. -/
theorem Formed.insert_new (h : a.Formed) (x : α) (hfree : a.free = []) :
    (a.insert x).1 = pack 1 a.slots.size
      ∧ a.Fills a.slots.size 1 x (a.insert x).2 := by
  have hinsert : a.insert x = (pack 1 a.slots.size,
      { a with
        slots := a.slots.push ⟨1, some x⟩, size := a.size + 1 }) := by
    unfold Arena.insert
    rw [hfree]
  have hslots (j : Nat) : (a.slots.push ⟨1, some x⟩)[j]?
      = if j = a.slots.size then some ⟨1, some x⟩ else a.slots[j]? :=
    Array.getElem?_push
  rw [hinsert]
  refine ⟨rfl, .inr ⟨rfl, rfl⟩, hslots, rfl, h.free_nodup, fun j => ?_,
    fun j slot hslot => ?_⟩
  · dsimp only
    rw [h.mem_free, hslots]
    split
    next heq =>
      rw [heq, Array.getElem?_size]
      exact ⟨nofun, nofun⟩
    next => rfl
  · dsimp only at hslot
    rw [hslots] at hslot
    split at hslot
    next =>
      cases hslot
      exact ⟨Nat.one_pos, (by decide : 1 < generationCount)⟩
    next => exact h.generation_fits j slot hslot

/-- The slot that was freed last is filled, at the generation it has. -/
theorem Formed.insert_free (h : a.Formed) (x : α) {free : List Nat}
    (hfree : a.free = i :: free) :
    ∃ g, (a.insert x).1 = pack g i ∧ a.Fills i g x (a.insert x).2 := by
  have hnodup := h.free_nodup
  rw [hfree, List.nodup_cons] at hnodup
  obtain ⟨g, hslot⟩ := (h.mem_free i).1 (hfree ▸ .head _)
  have hinsert : a.insert x = (pack g i,
      { slots := a.slots.setIfInBounds i ⟨g, some x⟩
        free, size := a.size + 1 }) := by
    unfold Arena.insert
    rw [hfree]
    dsimp only
    rw [hslot]
    rfl
  have hslots := getElem?_put hslot ⟨g, some x⟩
  rw [hinsert]
  refine ⟨g, rfl, .inl hslot, hslots, rfl, hnodup.2, fun j => ?_,
    fun j slot hj => ?_⟩
  · dsimp only
    rw [hslots]
    split
    next heq => exact ⟨fun hj => (hnodup.1 (heq ▸ hj)).elim, nofun⟩
    next hne => rw [← h.mem_free j, hfree, List.mem_cons, or_iff_right hne]
  · dsimp only at hj
    rw [hslots] at hj
    split at hj
    next =>
      cases hj
      exact h.generation_fits i ⟨g, none⟩ hslot
    next => exact h.generation_fits j slot hj

/-- Inserting fills a slot and gives the handle for it. -/
theorem Formed.insert (h : a.Formed) (x : α) :
    ∃ i g, (a.insert x).1 = pack g i ∧ a.Fills i g x (a.insert x).2 := by
  cases hfree : a.free with
  | nil => exact ⟨_, _, h.insert_new x hfree⟩
  | cons i free => exact ⟨i, h.insert_free x hfree⟩

/-- The slot that was filled has what was put there, and had nothing. -/
theorem Fills.occupant? {a' : Arena α} (h : a.Fills i g x a') :
    a.occupant? i = none
      ∧ ∀ j, a'.occupant? j = if j = i then some x else a.occupant? j := by
  constructor
  · unfold Arena.occupant?
    rcases h.vacant with hslot | ⟨rfl, -⟩
    · rw [hslot]
      rfl
    · rw [Array.getElem?_size]
      rfl
  · intro j
    unfold Arena.occupant?
    rw [h.slots_eq j]
    split <;> rfl

/-- With few enough slots, what was put in is reached by the handle that was
given for it. -/
theorem Formed.get?_insert (h : a.Formed)
    (hslots : (a.insert x).2.slots.size ≤ slotCount) :
    (a.insert x).2.get? (a.insert x).1 = some x := by
  obtain ⟨i, g, hhandle, hfills⟩ := h.insert x
  rw [hhandle]
  exact hfills.formed.get?_pack hslots
    ((hfills.slots_eq i).trans (if_pos rfl))

/-- Entering makes no slots fewer. -/
theorem slots_size_insert (a : Arena α) (x : α) :
    a.slots.size ≤ (a.insert x).2.slots.size := by
  unfold Arena.insert
  split
  · exact Nat.le_of_eq Array.size_setIfInBounds.symm
  · exact (Array.size_push ..).symm ▸ Nat.le_succ _

/-- An arena with a slot vacated under its next generation. -/
structure Vacates (a : Arena α) (i g : Nat) (x : α) (a' : Arena α) :
    Prop where
  occupied : a.slots[i]? = some ⟨g, some x⟩
  slots_eq : ∀ j : Nat, a'.slots[j]? = if j = i
    then some ⟨nextGeneration g, none⟩ else a.slots[j]?
  slots_size : a'.slots.size = a.slots.size
  size_eq : a'.size = a.size - 1
  formed : a.Formed → a'.Formed

/-- The slot that was vacated has nothing, and had what was taken out. -/
theorem Vacates.occupant? {a' : Arena α} (h : a.Vacates i g x a') :
    a.occupant? i = some x
      ∧ ∀ j, a'.occupant? j = if j = i then none else a.occupant? j := by
  refine ⟨occupant?_eq_some.2 ⟨g, h.occupied⟩, fun j => ?_⟩
  unfold Arena.occupant?
  rw [h.slots_eq j]
  split <;> rfl

/-- Removing takes out what the handle reaches, and does nothing if it
reaches nothing. -/
theorem remove_cases (a : Arena α) (raw : Int64) :
    (a.get? raw = none ∧ a.remove raw = (none, a))
      ∨ ∃ i x, index? raw = some i ∧ a.get? raw = some x
        ∧ (a.remove raw).1 = some x
        ∧ a.Vacates i (generation raw) x (a.remove raw).2 := by
  unfold remove get?
  rcases hfind : a.find? raw with _ | ⟨i, g, _ | x⟩
  · exact .inl ⟨rfl, rfl⟩
  · exact .inl ⟨rfl, rfl⟩
  · obtain ⟨hindex, hslot, hgen⟩ := find?_eq_some.1 hfind
    obtain rfl : g = generation raw := hgen
    have hslots := getElem?_put hslot
      ⟨nextGeneration (generation raw), none⟩
    refine .inr ⟨i, x, hindex, rfl, rfl, hslot, hslots,
      Array.size_setIfInBounds, rfl, fun h => ⟨?_, ?_, ?_⟩⟩
    · refine List.nodup_cons.2 ⟨fun hmem => ?_, h.free_nodup⟩
      obtain ⟨_, hnone⟩ := (h.mem_free i).1 hmem
      rw [hslot] at hnone
      cases hnone
    · intro j
      dsimp only
      rw [List.mem_cons, hslots, h.mem_free]
      split
      next heq => exact ⟨fun _ => ⟨_, rfl⟩, fun _ => .inl heq⟩
      next hne => exact or_iff_right hne
    · intro j slot hj
      dsimp only at hj
      rw [hslots] at hj
      split at hj
      next =>
        cases hj
        exact nextGeneration_fits _
      next => exact h.generation_fits j slot hj

/-- Removing leaves the slots. -/
theorem slots_size_remove (a : Arena α) (raw : Int64) :
    (a.remove raw).2.slots.size = a.slots.size := by
  rcases a.remove_cases raw with ⟨-, heq⟩ | ⟨i, x, -, -, -, hvacates⟩
  · rw [heq]
  · exact hvacates.slots_size

/-- Replacing puts something else under the handle, and does nothing if the
handle reaches nothing. -/
theorem replace_cases (a : Arena α) (raw : Int64) (y : α) :
    (a.get? raw = none ∧ a.replace raw y = a)
      ∨ ∃ i x, index? raw = some i
        ∧ a.slots[i]? = some ⟨generation raw, some x⟩
        ∧ a.replace raw y = { a with
            slots := a.slots.setIfInBounds i ⟨generation raw, some y⟩ } := by
  unfold replace get?
  rcases hfind : a.find? raw with _ | ⟨i, g, _ | x⟩
  · exact .inl ⟨rfl, rfl⟩
  · exact .inl ⟨rfl, rfl⟩
  · obtain ⟨hindex, hslot, hgen⟩ := find?_eq_some.1 hfind
    obtain rfl : g = generation raw := hgen
    exact .inr ⟨i, x, hindex, hslot, rfl⟩

/-- Something else in an occupied slot leaves the rest as it is. -/
theorem Formed.replaced (h : a.Formed)
    (hslot : a.slots[i]? = some ⟨g, some x⟩) (y : α) :
    Formed { a with slots := a.slots.setIfInBounds i ⟨g, some y⟩ } := by
  have hslots := getElem?_put hslot ⟨g, some y⟩
  refine ⟨h.free_nodup, fun j => ?_, fun j slot hj => ?_⟩
  · dsimp only
    rw [hslots, h.mem_free]
    split
    next heq =>
      rw [heq, hslot]
      exact ⟨nofun, nofun⟩
    next => rfl
  · dsimp only at hj
    rw [hslots] at hj
    split at hj
    next =>
      cases hj
      exact h.generation_fits i ⟨g, some x⟩ hslot
    next => exact h.generation_fits j slot hj

-- ================================================================ entries

/-- With few enough slots, the entries are what the handles reach. -/
theorem Formed.mem_entries (h : a.Formed)
    (hslots : a.slots.size ≤ slotCount) :
    (raw, x) ∈ a.entries ↔ a.get? raw = some x := by
  unfold entries
  rw [List.mem_filterMap]
  constructor
  · rintro ⟨⟨⟨g, value⟩, i⟩, hmem, hentry⟩
    obtain ⟨z, hvalue, hpair⟩ := Option.map_eq_some_iff.1 hentry
    obtain rfl : value = some z := hvalue
    cases hpair
    have hslot : a.slots[i]? = some ⟨g, some x⟩ := by
      rw [← Array.getElem?_toList]
      exact List.mem_zipIdx_iff_getElem?.1 hmem
    exact h.get?_pack hslots hslot
  · intro hget
    obtain ⟨i, hindex, hslot⟩ := get?_eq_some.1 hget
    refine ⟨(⟨generation raw, some x⟩, i), ?_, ?_⟩
    · rw [List.mem_zipIdx_iff_getElem?, Array.getElem?_toList]
      exact hslot
    · show some (pack (generation raw) i, x) = some (raw, x)
      rw [← (eq_pack_of_index? hindex).1]

/-- The handles whose values a test does not keep. -/
def dropped (a : Arena α) (keep : α → Bool) : List Int64 :=
  (a.entries.filter fun (_, x) => !keep x).map Prod.fst

/-- Retaining removes what is dropped, number by number. -/
theorem retain_eq (a : Arena α) (keep : α → Bool) :
    a.retain keep
      = (a.dropped keep).foldl (fun a raw => (a.remove raw).2) a := by
  unfold dropped
  rw [List.foldl_map]
  rfl

/-- Retaining leaves the slots. -/
theorem slots_size_retain (a : Arena α) (keep : α → Bool) :
    (a.retain keep).slots.size = a.slots.size := by
  rw [a.retain_eq]
  generalize a.dropped keep = handles
  induction handles generalizing a with
  | nil => rfl
  | cons raw rest ih => exact (ih _).trans (a.slots_size_remove raw)

/-- Dropped are the numbers of what is not kept. -/
theorem Formed.mem_dropped (h : a.Formed)
    (hslots : a.slots.size ≤ slotCount) {keep : α → Bool} :
    raw ∈ a.dropped keep ↔ ∃ x, a.get? raw = some x ∧ keep x = false := by
  unfold dropped
  simp only [List.mem_map, List.mem_filter, Bool.not_eq_true', Prod.exists,
    exists_and_right, exists_eq_right, h.mem_entries hslots]

end Colonnade.Boundary.Arena
