/-
Writing links through a session. The object that a link should point to is
named by the integer of its key, and some integers name none; writing a link
by one of those makes it absent. Which integers these are is a convention,
and what comes of a convention is said once (`LinksUnder`): what names no
object clears the link, the key of a live object of the target table is
linked to, and every other integer is refused with nothing changed.

The convention that is kept is that negative integers name no object. The
one that is announced is that -1 does. They part below -1, where a link is
cleared by an integer that elsewhere is refused as a key.

Chain: `Engine.Cells` for the handle, `Boundary.Nulling` for the session
around it.
-/
import Colonnade.Proofs.Boundary.Nulling

namespace Colonnade.Boundary.Session

open Snapshot (Applied LinkLive Reached)

variable {s : Session} {h col key : Int64} {o : ObjectHandle}
  {t : Transaction} {table : Table} {c : Column} {v : Value}

-- ======================================================= conventions

/-- Whether a call writes a value to a cell: the cell reads as the value
afterwards, in a snapshot that one recorded instruction leads to. -/
def WritesCell (s : Session) (o : ObjectHandle) (t : Transaction)
    (col : ColumnKey) (v : Value) (call : Call Unit) : Prop :=
  ∃ snapshot table,
    Applied s.engine.limits t.view.snapshot (.set o.table o.key col v)
      snapshot
    ∧ snapshot.table? o.table = some table
    ∧ table.valueOf o.key col = .ok v
    ∧ call.run s = .ok () { s with
      engine := s.engine.written o.anchor.transaction t
        (.set o.table o.key col v) snapshot }

/-- How links are written if some integers name no object: those clear the
link, the key of a live object is linked to, and any other integer is
refused. -/
structure LinksUnder (namesNone : Int64 → Prop) (s : Session)
    (h col : Int64) (o : ObjectHandle) (t : Transaction) (c : Column)
    (key : Int64) : Prop where
  clears : namesNone key → s.WritesCell o t ⟨col⟩ .null (setLink h col key)
  links : ¬ namesNone key → t.view.snapshot.LinkLive c (.link ⟨key⟩) →
    s.WritesCell o t ⟨col⟩ (.link ⟨key⟩) (setLink h col key)
  refuses : ¬ namesNone key → ¬ t.view.snapshot.LinkLive c (.link ⟨key⟩) →
    s.Refuses (setLink h col key)

/-- A call writes one value at most. -/
theorem WritesCell.unique {w : Value} {cell : ColumnKey} {call : Call Unit}
    (hv : s.WritesCell o t cell v call) (hw : s.WritesCell o t cell w call) :
    v = w := by
  obtain ⟨snapshot, table, -, htable, hvalue, hrun⟩ := hv
  obtain ⟨snapshot', table', -, htable', hvalue', hrun'⟩ := hw
  rw [hrun] at hrun'
  have hengine : s.engine.written o.anchor.transaction t
      (.set o.table o.key cell v) snapshot
      = s.engine.written o.anchor.transaction t
        (.set o.table o.key cell w) snapshot' := by
    injection hrun' with _ heq
    exact congrArg Session.engine heq
  have hview := congrArg (·.transaction? o.anchor.transaction) hengine
  unfold Engine.written at hview
  dsimp only at hview
  rw [Engine.transaction?_self, Engine.transaction?_self] at hview
  obtain rfl : snapshot = snapshot' :=
    congrArg (·.view.snapshot) (Option.some.inj hview)
  obtain rfl : table = table' := Option.some.inj (htable.symm.trans htable')
  rw [hvalue] at hvalue'
  exact Except.ok.inj hvalue'

/-- A call that writes is not one that refuses. -/
theorem WritesCell.not_refuses {cell : ColumnKey} {call : Call Unit}
    (h : s.WritesCell o t cell v call) : ¬ s.Refuses call := by
  rintro ⟨f, hrefused⟩
  obtain ⟨snapshot, table, -, -, -, hrun⟩ := h
  rw [hrun] at hrefused
  cases hrefused

-- ================================================ what a session does

theorem notFound_le_iff : notFound ≤ key ↔ key = notFound ∨ ¬ key < 0 := by
  have hnotFound : notFound.toInt = -1 := rfl
  have hzero : (0 : Int64).toInt = 0 := rfl
  rw [Int64.le_iff_toInt_le, Int64.lt_iff_toInt_lt, ← Int64.toInt_inj,
    hnotFound, hzero]
  omega

/-- A negative integer is read as no key. -/
theorem setLink_of_neg (hkey : key < 0) :
    setLink h col key = setTyped h col .link .null := by
  unfold setLink ObjectKey.ofRaw?
  rw [if_neg (Int64.not_le.2 hkey)]

/-- A key that is not negative is set as a link. -/
theorem setLink_of_nonneg (hkey : ¬ key < 0) :
    setLink h col key = setTyped h col .link (.link ⟨key⟩) := by
  unfold setLink ObjectKey.ofRaw?
  rw [if_pos (Int64.not_lt.1 hkey)]

section Links

variable (hwrought : s.engine.Wrought) (hget : s.objects.get? h = some o)
  (hreaches : o.Reaches s.engine t table)
  (hc : table.column? ⟨col⟩ = some c) (hlink : c.spec.type = .link)

include hget hreaches hc hlink

/-- Writing to a column of links is writing through the handle. -/
theorem run_setTyped_link (v : Value) :
    (setTyped h col .link v).run s = (onEngine (o.set ⟨col⟩ v)).run s := by
  have hset := run_setTyped hget hreaches hc v
  rwa [hlink] at hset

/-- A link to nothing that lives is refused. -/
theorem refuses_setTyped_link
    (hlost : ¬ t.view.snapshot.LinkLive c v) :
    s.Refuses (setTyped h col .link v) := by
  unfold Refuses
  rw [run_setTyped_link hget hreaches hc hlink]
  cases hrun : (o.set ⟨col⟩ v).run s.engine with
  | ok u e =>
      obtain ⟨t', table', snapshot, hreaches', -, happ, -⟩ :=
        ObjectHandle.gives_set_iff.1 hrun
      obtain ⟨rfl, rfl⟩ := hreaches.unique hreaches'
      cases happ with
      | set htable hcell hlist hfits hlive =>
          cases hreaches.table_eq.symm.trans htable
          cases hc.symm.trans hcell.column_eq
          exact absurd hlive hlost
  | error err e =>
      obtain rfl := hreaches.run_write_error hrun
      exact ⟨_, run_onEngine_error hrun⟩

variable (hmode : t.view.mode = .writing)

include hwrought hmode

/-- Null and a link to a live object are written. -/
theorem writesCell_setTyped_link
    (hv : v = .null ∨ ∃ k, v = .link k)
    (hlive : t.view.snapshot.LinkLive c v) :
    s.WritesCell o t ⟨col⟩ v (setTyped h col .link v) := by
  have hvalid := ((hreaches.formed hwrought).1 c
    (Table.mem_of_column? hc)).valid
  obtain ⟨hlist, hnullable⟩ := hvalid.link_single hlink
  have hfits : c.spec.Accepts s.engine.limits v := by
    rcases hv with rfl | ⟨k, rfl⟩
    · exact hnullable
    · exact ⟨by rw [hlink]; rfl, trivial⟩
  obtain ⟨snapshot, table', happ, htable', hvalue⟩ :=
    hreaches.applied_set hwrought hc hlist hfits hlive
  refine ⟨snapshot, table', happ, htable', hvalue, ?_⟩
  rw [run_setTyped_link hget hreaches hc hlink]
  exact run_onEngine_ok (ObjectHandle.gives_set_iff.2
    ⟨t, table, snapshot, hreaches, hmode, happ, rfl⟩)

/-- Negative integers name no object. -/
theorem linksUnder_neg (key : Int64) :
    LinksUnder (· < 0) s h col o t c key where
  clears hkey := by
    rw [setLink_of_neg hkey]
    exact writesCell_setTyped_link hwrought hget hreaches hc hlink hmode
      (.inl rfl) nofun
  links hkey hlive := by
    rw [setLink_of_nonneg hkey]
    exact writesCell_setTyped_link hwrought hget hreaches hc hlink hmode
      (.inr ⟨_, rfl⟩) hlive
  refuses hkey hlost := by
    rw [setLink_of_nonneg hkey]
    exact refuses_setTyped_link hget hreaches hc hlink hlost

/-- That -1 alone names none is true of the integers from -1 up. -/
theorem linksUnder_notFound_iff (key : Int64) :
    LinksUnder (· = notFound) s h col o t c key ↔ notFound ≤ key := by
  have hneg := linksUnder_neg hwrought hget hreaches hc hlink hmode key
  rw [notFound_le_iff]
  constructor
  · intro hpromised
    by_contra hbelow
    obtain ⟨hne, hkey⟩ := not_or.1 hbelow
    have hcleared := hneg.clears (not_not.1 hkey)
    by_cases hlive : t.view.snapshot.LinkLive c (.link ⟨key⟩)
    · cases hcleared.unique (hpromised.links hne hlive)
    · exact hcleared.not_refuses (hpromised.refuses hne hlive)
  · rintro (rfl | hkey)
    · exact ⟨fun _ => hneg.clears (by decide), fun hne => absurd rfl hne,
        fun hne => absurd rfl hne⟩
    · refine ⟨?_, fun _ => hneg.links hkey, fun _ => hneg.refuses hkey⟩
      rintro rfl
      exact absurd (by decide) hkey

end Links

/-- What becomes of a link that is written by the integer of a key, at every
point of every run, for every object that is lent out and reached by a
transaction that writes and every column of links. Every negative integer
clears the link, and the rest are keys: that of a live object of the target
table is linked to, and any other is refused with the session left as it was.
So it is as announced, with -1 alone clearing the link, exactly for the
integers from -1 up. -/
theorem link_clears_below_zero {is : List Instruction} {snapshot : Snapshot}
    (hreached : Reached is snapshot) (log : Option HistoryLog)
    (limits : Limits) (earlier : List Engine.Event) (config : Config)
    (path : Option String) (events : List Event) {h col : Int64}
    {o : ObjectHandle} {t : Transaction} {c : Column} :
    let s := (serving ((Engine.starting snapshot log limits).through earlier)
      config path).through events
    s.objects.get? h = some o → o.isValid s.engine = true →
    s.engine.transaction? o.anchor.transaction = some t →
    t.view.mode = .writing → o.column? s.engine ⟨col⟩ = some c →
    c.spec.type = .link → ∀ key,
      LinksUnder (· < 0) s h col o t c key
        ∧ (LinksUnder (· = notFound) s h col o t c key ↔ notFound ≤ key) := by
  intro s hget hvalid ht hmode hcol hlink key
  obtain ⟨-, hwrought⟩ :=
    wrought_through hreached log limits earlier config path events
  obtain ⟨t', table, hreaches⟩ := ObjectHandle.isValid_iff_reaches.1 hvalid
  obtain rfl : t' = t :=
    Option.some.inj (hreaches.transaction_eq.symm.trans ht)
  rw [hreaches.column?_eq] at hcol
  exact ⟨linksUnder_neg hwrought hget hreaches hcol hlink hmode key,
    linksUnder_notFound_iff hwrought hget hreaches hcol hlink hmode key⟩

/-- The link of an object to itself is cleared by -1 as announced, and not
as announced by -2. -/
theorem link_clears_below_zero_linkedToItself :
    let s := (serving (Engine.starting .empty none ({} : Config).limits) {}
      none).through linkedToItself
    let h := Arena.pack 1 0
    ∃ o t c, s.objects.get? h = some o ∧ o.isValid s.engine = true
      ∧ s.engine.transaction? o.anchor.transaction = some t
      ∧ t.view.mode = .writing ∧ o.column? s.engine ⟨2⟩ = some c
      ∧ c.spec.type = .link
      ∧ LinksUnder (· = notFound) s h 2 o t c (-1)
      ∧ ¬ LinksUnder (· = notFound) s h 2 o t c (-2) := by
  intro s h
  let o : ObjectHandle := ⟨⟨⟨1⟩, 0⟩, ⟨0⟩, ⟨0⟩⟩
  have hget : s.objects.get? h = some o := by decide +kernel
  have hvalid : o.isValid s.engine = true := by decide +kernel
  have hwriting : (s.engine.transaction? ⟨1⟩).map (·.view.mode)
      = some .writing := by decide +kernel
  have hlinks : (o.column? s.engine ⟨2⟩).map (·.spec.type) = some .link := by
    decide +kernel
  obtain ⟨t, ht, hmode⟩ := Option.map_eq_some_iff.1 hwriting
  obtain ⟨c, hcol, hlink⟩ := Option.map_eq_some_iff.1 hlinks
  have houtcome := link_clears_below_zero .empty none ({} : Config).limits []
    {} none linkedToItself hget hvalid ht hmode hcol hlink
  refine ⟨o, t, c, hget, hvalid, ht, hmode, hcol, hlink, ?_, ?_⟩
  · exact (houtcome (-1)).2.2 (by decide)
  · exact fun hpromised => absurd ((houtcome (-2)).2.1 hpromised) (by decide)

/-- What a call answers if it succeeds. -/
def answer? {α : Type} (s : Session) (call : Call α) : Option α :=
  match call.run s with
  | .ok a _ => some a
  | .error _ _ => none

/-- An object is linked to itself, -2 is the key of no object and refused as
one, and writing it as a link succeeds and clears the link. -/
theorem link_cleared_by_minus_two :
    let s := (serving (Engine.starting .empty none ({} : Config).limits) {}
      none).through linkedToItself
    let h := Arena.pack 1 0
    s.answer? (isNull h 2) = some false
      ∧ s.answer? (findObject h (-2)) = none
      ∧ s.answer? (setLink h 2 (-2)) = some ()
      ∧ ((Operation.setLink h 2 (-2)).step s).answer? (isNull h 2)
        = some true := by
  decide +kernel

end Colonnade.Boundary.Session
