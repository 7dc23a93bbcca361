/-
Columns as the rest of the proofs see them: what a check lets through, said
without the check, and what a cell holds before and after each operation.
`Cells.content?` reads a cell of either kind, and `Cells.store` overwrites
one; every write to a column that succeeds is a `store`.

A declaration that passed its check is `Valid`, and a value that passed the
check of a column is one that its declaration `Accepts`.

Columns grow within the room there is. The first request that is refused is
where they stop, and `growFirst` is how they are left.

Chain: `Table` is proved in these terms.
-/
import Colonnade.Column
import Colonnade.Proofs.Edit

namespace Colonnade

-- ======================================================= declarations

/-- What a declaration must be to become a column. -/
structure ColumnSpec.Valid (s : ColumnSpec) : Prop where
  name_ne : s.name ≠ ""
  target_of_link : s.type.isLink = true → s.target ≠ none
  link_of_target : s.target ≠ none → s.type.isLink = true
  link_single : s.type = .link → s.isList = false ∧ s.nullable = true
  linkList_present : s.type = .linkList → s.nullable = false

/-- The check of a declaration accepts what is valid. -/
theorem ColumnSpec.check_eq_ok {s : ColumnSpec} :
    s.check = .ok () ↔ s.Valid := by
  constructor
  · intro h
    simp only [check, Check.throw_bind, Check.guard_eq_ok,
      Check.pure_eq_ok] at h
    obtain ⟨hname, hlink, htarget, hlist, hnull, hpresent, -⟩ := h
    exact {
      name_ne := by simpa using hname
      target_of_link := by simpa using hlink
      link_of_target := by
        intro ht
        cases hl : s.type.isLink with
        | true => rfl
        | false => exact absurd (by simpa using htarget) (by simp [hl, ht])
      link_single := fun hl => by simp_all
      linkList_present := fun hl => by simp_all }
  · intro h
    simp only [check, Check.throw_bind, Check.guard_eq_ok, Check.pure_eq_ok]
    have htarget : s.type.isLink = false → s.target = none := by
      intro hl
      by_contra ht
      simp [h.link_of_target ht] at hl
    refine ⟨by simpa using h.name_ne, by simpa using h.target_of_link,
      by simpa using htarget, ?_, ?_, ?_, trivial⟩
    · simpa using fun hl => (h.link_single hl).1
    · simpa using fun hl => (h.link_single hl).2
    · simpa using h.linkList_present

/-- A list of links is a list, and so nothing but a list column has links
that are not single. -/
theorem ColumnSpec.Valid.type_of_target {s : ColumnSpec} (h : s.Valid)
    {u : TableKey} (ht : s.target = some u) :
    (s.type = .link ∧ s.isList = false)
      ∨ (s.type = .linkList ∧ s.isList = true) := by
  have hl := h.link_of_target (by simp [ht])
  cases htype : s.type with
  | link => exact Or.inl ⟨rfl, (h.link_single htype).1⟩
  | linkList => exact Or.inr ⟨rfl, s.isList_of_linkList htype⟩
  | _ => simp [htype, ColumnType.isLink] at hl

/-- Whether a value is no longer than the limits. -/
def Value.Within (limits : Limits) : Value → Prop
  | string s => s.utf8ByteSize ≤ limits.maxString
  | binary bytes => bytes.length ≤ limits.maxBinary
  | _ => True

/-- Whether a value may be the content of a cell, or of one element of it:
absence where the declaration allows it, and otherwise content of the
declared type within the limits. -/
def ColumnSpec.Accepts (s : ColumnSpec) (limits : Limits) (v : Value) : Prop :=
  match v.columnType? with
  | none => s.nullable = true
  | some type => type = s.type.elementType ∧ v.Within limits

/-- The check of a cell accepts what the declaration does. -/
theorem Column.checkCell_eq_ok {c : Column} {limits : Limits} {v : Value} :
    c.checkCell limits v = .ok () ↔ c.spec.Accepts limits v := by
  cases v <;>
    simp [checkCell, ColumnSpec.Accepts, Value.columnType?, Value.Within]

/-- A value is accepted by a column without lists. -/
theorem Column.checkValue_eq_ok {c : Column} {limits : Limits} {v : Value} :
    c.checkValue limits v = .ok ()
      ↔ c.spec.isList = false ∧ c.spec.Accepts limits v := by
  simp [checkValue, checkCell_eq_ok]

/-- An element is accepted by a column of lists, except for a null among
links. -/
theorem Column.checkElement_eq_ok {c : Column} {limits : Limits} {v : Value} :
    c.checkElement limits v = .ok ()
      ↔ c.spec.isList = true ∧ ¬ (v = .null ∧ c.spec.type = .linkList)
        ∧ c.spec.Accepts limits v := by
  cases v <;>
    simp [checkElement, checkCell_eq_ok, Value.isNull]

-- ============================================================= cells

namespace Cells

/-- What the cell at a slot holds, if there is one. -/
def content? (slot : Nat) : Cells → Option CellContent
  | values cells => cells[slot]?.map .value
  | lists cells => cells[slot]?.map .list

/-- The cells with the content of one of them replaced by content of the
same kind. -/
def store (slot : Nat) : CellContent → Cells → Cells
  | .value v, values cells => values (cells.setIfInBounds slot v)
  | .list vs, lists cells => lists (cells.setIfInBounds slot vs)
  | _, cells => cells

/-- Whether the cells are of the kind that a declaration asks for. -/
def Suits (spec : ColumnSpec) : Cells → Prop
  | values _ => spec.isList = false
  | lists _ => spec.isList = true

@[simp]
theorem size_store (slot : Nat) (x : CellContent) (cells : Cells) :
    (cells.store slot x).size = cells.size := by
  cases cells <;> cases x <;> simp [store, size]

/-- There is content in every slot and no other. -/
theorem content?_isSome {cells : Cells} {slot : Nat} :
    (cells.content? slot).isSome = true ↔ slot < cells.size := by
  cases cells <;> simp [content?, size]

/-- Content of the kind of the old is what the slot holds afterwards, and
the other slots hold what they held. -/
theorem content?_store {cells : Cells} {slot : Nat} {old x : CellContent}
    (hold : cells.content? slot = some old)
    (hkind : (∃ v w, old = .value v ∧ x = .value w)
      ∨ ∃ vs ws, old = .list vs ∧ x = .list ws) (i : Nat) :
    (cells.store slot x).content? i
      = if i = slot then some x else cells.content? i := by
  have hlt := content?_isSome.1 (hold ▸ rfl : (cells.content? slot).isSome)
  rcases hkind with ⟨v, w, rfl, rfl⟩ | ⟨vs, ws, rfl, rfl⟩
  · cases cells with
    | values cells =>
        have hlt : slot < cells.size := hlt
        by_cases hi : i = slot
        · subst hi
          simp [store, content?, hlt]
        · simp [store, content?, hi, Ne.symm hi]
    | lists cells => simp [content?] at hold
  · cases cells with
    | values cells => simp [content?] at hold
    | lists cells =>
        have hlt : slot < cells.size := hlt
        by_cases hi : i = slot
        · subst hi
          simp [store, content?, hlt]
        · simp [store, content?, hi, Ne.symm hi]

/-- There is nothing to take out beyond the end. -/
theorem vacate_of_size_le {cells : Cells} {slot : Nat}
    (h : cells.size ≤ slot) : cells.vacate slot = cells := by
  have hself {α : Type} (xs : Array α) (hxs : xs.size ≤ slot) :
      Slots.vacate xs slot = xs := by
    unfold Slots.vacate
    split
    · rfl
    · rw [if_neg (by omega)]
  cases cells with
  | values cells => exact congrArg values (hself cells h)
  | lists cells => exact congrArg lists (hself cells h)

/-- Taking a cell out moves the last one into its slot. -/
theorem content?_vacate {cells : Cells} {slot : Nat}
    (h : slot < cells.size) (i : Nat) :
    (cells.vacate slot).content? i
      = if i < cells.size - 1 then
          if i = slot then cells.content? (cells.size - 1)
          else cells.content? i
        else none := by
  cases cells with
  | values cells =>
      simp only [vacate, content?, size] at h ⊢
      rw [Slots.getElem?_vacate h, Array.back?_eq_getElem?]
      by_cases hi : i < cells.size - 1
      · by_cases hs : i = slot
        · subst hs
          simp [hi]
        · simp [hi, hs]
      · simp [hi]
  | lists cells =>
      simp only [vacate, content?, size] at h ⊢
      rw [Slots.getElem?_vacate h, Array.back?_eq_getElem?]
      by_cases hi : i < cells.size - 1
      · by_cases hs : i = slot
        · subst hs
          simp [hi]
        · simp [hi, hs]
      · simp [hi]

/-- Nothing is in a cell afterwards that was in none before. -/
theorem content?_of_vacate {cells : Cells} {slot i : Nat} {x : CellContent}
    (h : (cells.vacate slot).content? i = some x) :
    ∃ j, cells.content? j = some x := by
  by_cases hslot : slot < cells.size
  · rw [content?_vacate hslot] at h
    split at h
    · split at h
      · exact ⟨_, h⟩
      · exact ⟨_, h⟩
    · cases h
  · refine ⟨i, ?_⟩
    rwa [vacate_of_size_le (by omega)] at h

/-- A vacated slot makes the cells fewer by one. -/
theorem size_vacate {cells : Cells} {slot : Nat} (h : slot < cells.size) :
    (cells.vacate slot).size = cells.size - 1 := by
  cases cells with
  | values cells => exact Slots.size_vacate h
  | lists cells => exact Slots.size_vacate h

/-- Storing keeps the cells of the kind that the column has. -/
theorem suits_store {spec : ColumnSpec} {cells : Cells}
    (h : cells.Suits spec) (slot : Nat) (x : CellContent) :
    (cells.store slot x).Suits spec := by
  cases cells <;> cases x <;> exact h

/-- Vacating keeps the cells of the kind that the column has. -/
theorem suits_vacate {spec : ColumnSpec} {cells : Cells}
    (h : cells.Suits spec) (slot : Nat) : (cells.vacate slot).Suits spec := by
  cases cells <;> exact h

end Cells

-- =========================================================== columns

namespace Column

/-- What a new cell holds. -/
def freshContent (spec : ColumnSpec) : CellContent :=
  if spec.isList then .list [] else .value (freshValue spec)

@[simp]
theorem key_grow (c : Column) : c.grow.key = c.key := by
  unfold grow
  split <;> rfl

@[simp]
theorem spec_grow (c : Column) : c.grow.spec = c.spec := by
  unfold grow
  split <;> rfl

/-- Growing keeps the cells of the kind that the column has. -/
theorem suits_grow {c : Column} (h : c.cells.Suits c.spec) :
    c.grow.cells.Suits c.grow.spec := by
  unfold grow
  cases hc : c.cells <;> simpa [hc, Cells.Suits] using h

theorem size_grow (c : Column) : c.grow.size = c.size + 1 := by
  unfold grow size
  cases c.cells <;> simp [Cells.size]

/-- The new cell is fresh and the others hold what they held. -/
theorem content?_grow {c : Column} (h : c.cells.Suits c.spec) (i : Nat) :
    c.grow.cells.content? i
      = if i = c.size then some (freshContent c.spec)
        else c.cells.content? i := by
  unfold grow size freshContent
  cases hc : c.cells with
  | values cells =>
      have hl : c.spec.isList = false := by simpa [hc, Cells.Suits] using h
      simp only [Cells.content?, Cells.size, Array.getElem?_push, hl]
      split <;> simp
  | lists cells =>
      have hl : c.spec.isList = true := by simpa [hc, Cells.Suits] using h
      simp only [Cells.content?, Cells.size, Array.getElem?_push, hl]
      split <;> simp

-- ============================================================= room

end Column

namespace Room

variable {room : Room} {n k l : Nat}

@[simp]
theorem grants_ample (n : Nat) : ample.grants n = true := rfl

/-- A request is answered if it is granted. -/
@[simp]
theorem ask_eq_ok {what : String} {requested : Nat} :
    room.ask n what requested = .ok () ↔ room.grants n = true := by
  simp [ask]

/-- Of the requests from the n-th on the first that is refused is the one
with k before it. -/
structure Stops (room : Room) (n k : Nat) : Prop where
  granted : ∀ i < k, room.grants (n + i) = true
  refused : room.grants (n + k) = false

/-- Only one request is the first that is refused. -/
theorem Stops.unique (hk : room.Stops n k) (hl : room.Stops n l) : k = l := by
  rcases Nat.lt_trichotomy k l with hlt | heq | hlt
  · exact absurd (hl.granted k hlt) (by simp [hk.refused])
  · exact heq
  · exact absurd (hk.granted l hlt) (by simp [hl.refused])

/-- Room for everything is never refused. -/
theorem not_stops_ample : ¬ ample.Stops n k :=
  fun h => nomatch h.refused

/-- The requests behind one that is granted. -/
theorem stops_succ_iff :
    room.Stops n (k + 1) ↔ room.grants n = true ∧ room.Stops (n + 1) k := by
  have hshift (i : Nat) : n + (i + 1) = n + 1 + i := by omega
  constructor
  · intro h
    refine ⟨h.granted 0 (Nat.succ_pos k), fun i hi => ?_, ?_⟩
    · rw [← hshift]
      exact h.granted (i + 1) (Nat.succ_lt_succ hi)
    · rw [← hshift]
      exact h.refused
  · rintro ⟨hn, h⟩
    refine ⟨fun i hi => ?_, by rw [hshift, h.refused]⟩
    cases i with
    | zero => exact hn
    | succ i =>
        rw [hshift]
        exact h.granted i (Nat.lt_of_succ_lt_succ hi)

end Room

namespace Column

variable {room : Room} {n : Nat}

@[simp]
theorem reserve_eq_ok {c : Column} {requested : Nat} :
    c.reserve room n requested = .ok () ↔ room.grants n = true :=
  Room.ask_eq_ok

/-- A new column with cells for so many rows, where there is room. -/
def blank (key : ColumnKey) (spec : ColumnSpec) (rows : Nat) : Column :=
  Nat.repeat grow rows ⟨key, spec, .empty spec⟩

/-- Whether a column grows first or last makes no difference. -/
theorem repeat_grow (rows : Nat) (c : Column) :
    Nat.repeat grow rows c.grow = (Nat.repeat grow rows c).grow := by
  induction rows with
  | zero => rfl
  | succ n ih => exact congrArg grow ih

/-- Filling succeeds if every cell gets room, and grows the column so often.
-/
theorem fill_eq_ok {c d : Column} {rows : Nat} :
    fill room n c rows = .ok d
      ↔ (∀ i < rows, room.grants (n + i) = true)
        ∧ Nat.repeat grow rows c = d := by
  induction rows generalizing n c with
  | zero => simp [fill, Nat.repeat]
  | succ rows ih =>
      simp only [fill, Check.bind_eq_ok, reserve_eq_ok, exists_unit, ih,
        repeat_grow, Nat.forall_lt_succ_left, Nat.add_zero, and_assoc,
        Nat.add_assoc, Nat.add_comm 1]
      rfl

/-- A column is made where room is granted for all of its cells and for
each. -/
theorem make_eq_ok {key : ColumnKey} {spec : ColumnSpec} {rows : Nat}
    {c : Column} :
    make room key spec rows = .ok c
      ↔ (∀ i < rows + 1, room.grants i = true) ∧ blank key spec rows = c := by
  simp only [make, Check.bind_eq_ok, reserve_eq_ok, exists_unit, fill_eq_ok,
    Nat.forall_lt_succ_left, Nat.add_comm 1, and_assoc, blank]

/-- With room for everything a column is made. -/
theorem make_ample (key : ColumnKey) (spec : ColumnSpec) (rows : Nat) :
    make .ample key spec rows = .ok (blank key spec rows) :=
  make_eq_ok.2 ⟨fun _ _ => rfl, rfl⟩

/-- Columns of which only so many of the first have grown. -/
def growFirst (k : Nat) (cs : List Column) : List Column :=
  (cs.take k).map grow ++ cs.drop k

/-- All columns grow, or the first that gets no room fails and with it those
behind it. -/
theorem growEach_ends (room : Room) (n : Nat) (cs : List Column) :
    (∀ i < cs.length, room.grants (n + i) = true)
        ∧ growEach room n cs = .ok () (cs.map grow)
      ∨ ∃ k c, room.Stops n k ∧ cs[k]? = some c
        ∧ growEach room n cs
          = .error (.outOfMemory s!"column '{c.spec.name}'" 1)
            (growFirst k cs) := by
  induction cs generalizing n with
  | nil => exact .inl ⟨nofun, rfl⟩
  | cons c cs ih =>
      cases hn : room.grants n with
      | false =>
          refine .inr ⟨0, c, ⟨nofun, hn⟩, rfl, ?_⟩
          simp [growEach, reserve, Room.ask, hn, growFirst]
          rfl
      | true =>
          have hroom : c.reserve room n 1 = .ok () := reserve_eq_ok.2 hn
          rcases ih (n + 1) with ⟨hall, hrest⟩ | ⟨k, d, hstops, hd, hrest⟩
          · refine .inl ⟨?_, ?_⟩
            · rw [List.length_cons, Nat.forall_lt_succ_left]
              refine ⟨hn, fun i hi => ?_⟩
              rw [Nat.add_comm i 1, ← Nat.add_assoc]
              exact hall i hi
            · rw [growEach, hroom, hrest]
              rfl
          · refine .inr ⟨k + 1, d, Room.stops_succ_iff.2 ⟨hn, hstops⟩, hd, ?_⟩
            rw [growEach, hroom, hrest]
            rfl

/-- Growing fails where it stops, and leaves the columns in front grown. -/
theorem growEach_of_stops {k : Nat} {c : Column} {cs : List Column}
    (hstops : room.Stops n k) (hc : cs[k]? = some c) :
    growEach room n cs
      = .error (.outOfMemory s!"column '{c.spec.name}'" 1)
        (growFirst k cs) := by
  rcases growEach_ends room n cs with ⟨hall, -⟩ | ⟨l, d, hstops', hd, hrun⟩
  · have hk := (List.getElem?_eq_some_iff.1 hc).1
    exact absurd (hall k hk) (by simp [hstops.refused])
  · obtain rfl := hstops.unique hstops'
    obtain rfl : c = d := Option.some.inj (hc.symm.trans hd)
    exact hrun

/-- With room for everything every column grows. -/
theorem growEach_ample (n : Nat) (cs : List Column) :
    growEach .ample n cs = .ok () (cs.map grow) := by
  rcases growEach_ends .ample n cs with ⟨-, hrun⟩ | ⟨k, c, hstops, -⟩
  · exact hrun
  · exact (Room.not_stops_ample hstops).elim

/-- All columns grow if every one gets room. -/
@[simp]
theorem gives_growAll {cs ds : List Column} :
    Edit.Gives (growAll room) cs () ds
      ↔ (∀ i < cs.length, room.grants (1 + i) = true)
        ∧ cs.map grow = ds := by
  unfold Edit.Gives growAll
  dsimp only [EStateM.run]
  rcases growEach_ends room 1 cs with ⟨hall, hrun⟩ | ⟨k, c, hstops, hc, hrun⟩
  · rw [hrun]
    constructor
    · intro h
      cases h
      exact ⟨hall, rfl⟩
    · rintro ⟨-, rfl⟩
      rfl
  · have hk := (List.getElem?_eq_some_iff.1 hc).1
    rw [hrun]
    exact ⟨nofun, fun h => absurd (h.1 k hk) (by simp [hstops.refused])⟩

-- A new column is made by growing an empty one, so what holds of every
-- column grown from it is carried through the rows one by one.

theorem blank_succ (key : ColumnKey) (spec : ColumnSpec) (rows : Nat) :
    blank key spec (rows + 1) = (blank key spec rows).grow := rfl

@[simp]
theorem key_blank (key : ColumnKey) (spec : ColumnSpec) (rows : Nat) :
    (blank key spec rows).key = key := by
  induction rows with
  | zero => rfl
  | succ n ih => rw [blank_succ, key_grow, ih]

@[simp]
theorem spec_blank (key : ColumnKey) (spec : ColumnSpec) (rows : Nat) :
    (blank key spec rows).spec = spec := by
  induction rows with
  | zero => rfl
  | succ n ih => rw [blank_succ, spec_grow, ih]

/-- A blank column has cells of the kind it was declared with. -/
theorem suits_blank (key : ColumnKey) (spec : ColumnSpec) (rows : Nat) :
    (blank key spec rows).cells.Suits (blank key spec rows).spec := by
  induction rows with
  | zero =>
      show (Cells.empty spec).Suits spec
      unfold Cells.empty
      split <;> simp_all [Cells.Suits]
  | succ n ih => exact suits_grow ih

theorem size_blank (key : ColumnKey) (spec : ColumnSpec) (rows : Nat) :
    (blank key spec rows).size = rows := by
  induction rows with
  | zero =>
      show (Cells.empty spec).size = 0
      unfold Cells.empty
      split <;> rfl
  | succ n ih => rw [blank_succ, size_grow, ih]

/-- Every cell of a blank column is fresh. -/
theorem content?_blank {key : ColumnKey} {spec : ColumnSpec}
    {rows i : Nat} (h : i < rows) :
    (blank key spec rows).cells.content? i = some (freshContent spec) := by
  induction rows with
  | zero => omega
  | succ n ih =>
      rw [blank_succ, content?_grow (suits_blank key spec n), size_blank,
        spec_blank]
      split
      · rfl
      · exact ih (by omega)

/-- A value that is read is absence or what some cell holds. -/
theorem valueAt_eq_null_or (c : Column) (slot : Nat) :
    c.valueAt slot = .null
      ∨ c.cells.content? slot = some (.value (c.valueAt slot)) := by
  unfold valueAt
  cases c.cells with
  | lists cells => exact Or.inl rfl
  | values cells =>
      cases hv : cells[slot]? with
      | none => simp [hv]
      | some v => simp [hv, Cells.content?]

/-- There is a list where the cell has one. -/
theorem listAt?_eq_some {c : Column} {slot : Nat} {vs : List Value} :
    c.listAt? slot = some vs ↔ c.cells.content? slot = some (.list vs) := by
  unfold listAt? Cells.content?
  cases c.cells <;> simp

-- ------------------------------------------------------------- writing

/-- Storing a value succeeds on a slot that holds a value, for a value that
the column can hold. -/
theorem gives_put {slot : Nat} {v : Value} {c c' : Column} :
    Edit.Gives (put slot v) c () c'
      ↔ (∃ w, c.cells.content? slot = some (.value w)) ∧ c.canHold v = true
        ∧ { c with cells := c.cells.store slot (.value v) } = c' := by
  unfold put size
  cases hc : c.cells with
  | values cells =>
      simp [hc, Cells.content?, Cells.store, Cells.size,
        Array.getElem?_eq_some_iff]
  | lists cells => simp [hc, Cells.content?]

/-- Changing a list succeeds on a slot that holds a list. -/
theorem gives_editList {slot : Nat} {f : List Value → List Value}
    {c c' : Column} :
    Edit.Gives (editList slot f) c () c'
      ↔ ∃ vs, c.cells.content? slot = some (.list vs)
        ∧ { c with cells := c.cells.store slot (.list (f vs)) } = c' := by
  unfold editList
  cases hc : c.cells with
  | values cells => simp [hc, Cells.content?]
  | lists cells =>
      cases hl : cells[slot]? with
      | none => simp [hc, hl, Cells.content?]
      | some vs => simp [hc, hl, Cells.content?, Cells.store]

/-- Putting a value into a column is atomic. -/
theorem atomic_put (slot : Nat) (v : Value) : Edit.Atomic (put slot v) := by
  refine Edit.Atomic.of_get_bind fun c => Edit.Atomic.guard ?_
  cases c.cells with
  | values cells =>
      show Edit.Atomic (if c.canHold v then set _ else throw _)
      split
      · exact Edit.Atomic.set _
      · exact Edit.Atomic.throw _
  | lists cells => exact Edit.Atomic.throw _

/-- Changing a list of a column is atomic. -/
theorem atomic_editList (slot : Nat) (f : List Value → List Value) :
    Edit.Atomic (editList slot f) := by
  refine Edit.Atomic.of_get_bind fun c => ?_
  dsimp only
  split
  next => exact Edit.Atomic.throw _
  next cells =>
    split
    next => exact Edit.Atomic.throw _
    next => exact Edit.Atomic.set _

-- -------------------------------------------------------------- links

/-- What a cell holds without the links to an object: a value that is one
becomes absent, and a list loses them. -/
def forget (key : ObjectKey) : CellContent → CellContent
  | .value v => .value (if v = .link key then .null else v)
  | .list vs => .list (vs.filter (· != .link key))

@[simp]
theorem key_unlink (c : Column) (key : ObjectKey) :
    (c.unlink key).key = c.key := by
  unfold unlink
  repeat' split
  all_goals rfl

@[simp]
theorem spec_unlink (c : Column) (key : ObjectKey) :
    (c.unlink key).spec = c.spec := by
  unfold unlink
  repeat' split
  all_goals rfl

theorem size_unlink (c : Column) (key : ObjectKey) :
    (c.unlink key).size = c.size := by
  obtain ⟨k, spec, cells⟩ := c
  cases cells <;> simp only [unlink] <;> split <;>
    simp [size, Cells.size]

/-- Taking links out keeps the cells of the kind that the column has. -/
theorem suits_unlink {c : Column} (h : c.cells.Suits c.spec)
    (key : ObjectKey) : (c.unlink key).cells.Suits (c.unlink key).spec := by
  obtain ⟨k, spec, cells⟩ := c
  cases cells <;> simp only [unlink] <;> split <;> exact h

/-- A column that links into a table forgets the object in every cell. -/
theorem content?_unlink {c : Column} (hvalid : c.spec.Valid)
    (hsuits : c.cells.Suits c.spec) {u : TableKey}
    (htarget : c.spec.target = some u) (key : ObjectKey) (i : Nat) :
    (c.unlink key).cells.content? i
      = (c.cells.content? i).map (forget key) := by
  have htype := hvalid.type_of_target htarget
  obtain ⟨k, spec, cells⟩ := c
  simp only at htype
  rcases htype with ⟨htype, hlist⟩ | ⟨htype, hlist⟩
  · cases cells with
    | values cells =>
        simp [unlink, htype, Cells.content?, Function.comp_def, forget]
    | lists cells => simp_all [Cells.Suits]
  · cases cells with
    | values cells => simp_all [Cells.Suits]
    | lists cells =>
        simp [unlink, htype, Cells.content?, Function.comp_def, forget]

/-- A column without a link to an object has nothing to forget. -/
theorem forget_of_not_linksTo {c : Column} (hvalid : c.spec.Valid)
    (hsuits : c.cells.Suits c.spec) {u : TableKey}
    (htarget : c.spec.target = some u) {key : ObjectKey}
    (h : c.linksTo key = false) (i : Nat) :
    (c.cells.content? i).map (forget key) = c.cells.content? i := by
  have htype := hvalid.type_of_target htarget
  obtain ⟨k, spec, cells⟩ := c
  simp only at htype
  rcases htype with ⟨htype, hlist⟩ | ⟨htype, hlist⟩
  · cases cells with
    | lists cells => simp_all [Cells.Suits]
    | values cells =>
        have hno : Value.link key ∉ cells := by simpa [linksTo, htype] using h
        simp only [Cells.content?, Option.map_map]
        refine Option.map_congr fun v hv => ?_
        have hne : v ≠ .link key := fun he =>
          hno (he ▸ Array.mem_of_getElem? hv)
        simp [forget, hne]
  · cases cells with
    | values cells => simp_all [Cells.Suits]
    | lists cells =>
        have hat : ∀ j (hj : j < cells.size), Value.link key ∉ cells[j] := by
          simpa [linksTo, htype] using h
        have hno : ∀ vs ∈ cells, Value.link key ∉ vs := by
          intro vs hvs
          obtain ⟨j, hj, rfl⟩ := Array.getElem_of_mem hvs
          exact hat j hj
        simp only [Cells.content?, Option.map_map]
        refine Option.map_congr fun vs hvs => ?_
        have hmem := hno vs (Array.mem_of_getElem? hvs)
        have hkeep : vs.filter (· != .link key) = vs :=
          List.filter_eq_self.2 fun v hv => by
            have hne : v ≠ .link key := fun he => hmem (he ▸ hv)
            simpa using hne
        simp [forget, hkeep]

end Column

end Colonnade
