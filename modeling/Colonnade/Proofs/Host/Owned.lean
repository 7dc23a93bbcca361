/-
How many owners the engines of a host have and which transactions they carry.
`Kept` states it of a host that is orderly, and that no engine is there
without an owner or a transaction, save for one that may be let go of next.
Each thing that a host does is given what becomes of the numbers: opening
adds an owner to an engine that was not there, sharing adds one and releasing
takes one away, a transaction that begins is added and one that is dropped
taken away, and nothing else makes a difference.

An engine that is gone has no owners and carries nothing, so what is said of
the numbers holds for every number of an engine there ever was.

Chain: on `Host.Locks` and `Engine.Carried`; `Host.Held` compares the numbers
with what is at hand.
-/
import Colonnade.Proofs.Engine.Carried
import Colonnade.Proofs.Host.Locks

namespace Colonnade.Host

open Engine (Carrying withOne without)
open Function (update update_self update_of_ne update_eq_self)

variable {h h' : Host} {n m : Nat} {o : OpenEngine} {id : TransactionId}
  {owners : Nat → Nat} {carried : Nat → TransactionId → Nat}
  {loose : Option Nat} {α : Type}

-- ========================================================= the numbers

/-- An orderly host with so many owners of each engine and such transactions
in it, and with no engine that nobody holds but perhaps one. -/
structure Kept (owners : Nat → Nat) (carried : Nat → TransactionId → Nat)
    (loose : Option Nat) (h : Host) : Prop where
  orderly : h.Orderly
  here : ∀ n o, h.engines[n]? = some o →
    o.owners = owners n ∧ o.engine.Carrying (carried n)
  gone : ∀ n, h.engines[n]? = none → owners n = 0 ∧ ∀ id, carried n id = 0
  tended : ∀ n, n ∈ h.engines → loose ≠ some n →
    owners n ≠ 0 ∨ ∃ id, carried n id ≠ 0

/-- A host with no engine that nobody holds. -/
abbrev Tended (owners : Nat → Nat) (carried : Nat → TransactionId → Nat)
    (h : Host) : Prop :=
  Kept owners carried none h

theorem getElem?_eq_none (hn : n ∉ h.engines) : h.engines[n]? = none :=
  Option.not_isSome_iff_eq_none.1 fun hsome =>
    hn (Std.TreeMap.mem_iff_isSome_getElem?.2 hsome)

/-- An engine with an owner is there. -/
theorem Kept.mem_of_owners (hkept : Kept owners carried loose h)
    (hn : owners n ≠ 0) : n ∈ h.engines :=
  Decidable.byContradiction fun hgone =>
    hn (hkept.gone n (getElem?_eq_none hgone)).1

theorem Kept.mem_of_carried (hkept : Kept owners carried loose h)
    (hn : carried n id ≠ 0) : n ∈ h.engines :=
  Decidable.byContradiction fun hgone =>
    hn ((hkept.gone n (getElem?_eq_none hgone)).2 id)

/-- No transaction is carried twice. -/
theorem Kept.carried_le (hkept : Kept owners carried loose h) (n : Nat)
    (id : TransactionId) : carried n id ≤ 1 := by
  cases ho : h.engines[n]? with
  | none =>
      rw [(hkept.gone n ho).2 id]
      exact Nat.zero_le 1
  | some o =>
      rw [← (hkept.here n o ho).2.carried_eq id]
      exact o.engine.carried_le id

/-- One that somebody holds after all. -/
theorem Kept.tend (hkept : Kept owners carried (some n) h)
    (hn : n ∈ h.engines → owners n ≠ 0 ∨ ∃ id, carried n id ≠ 0) :
    Tended owners carried h :=
  { hkept with
    tended := fun m hm _ => by
      by_cases heq : m = n
      · subst heq
        exact hn hm
      · have hne : some n ≠ some m := fun h => heq (Option.some.inj h).symm
        exact hkept.tended m hm hne }

theorem Kept.loosened (hkept : Tended owners carried h) (n : Nat) :
    Kept owners carried (some n) h :=
  { hkept with tended := fun m hm _ => hkept.tended m hm nofun }

/-- What an engine that is gone could have carried makes no difference. -/
theorem Kept.update_gone (hkept : Kept owners carried loose h)
    (hgone : h.engines[n]? = none) (id : TransactionId) :
    update carried n (without (carried n) id) = carried := by
  refine (congrArg (update carried n) ?_).trans (update_eq_self n carried)
  funext a
  unfold without
  rw [Function.update_apply, (hkept.gone n hgone).2 a, ite_self]

/-- One engine in the place of another, which may now be without anybody. -/
theorem Kept.replaced (hkept : Tended owners carried h)
    (ho : h.engines[n]? = some o) {o' : OpenEngine}
    {counts : TransactionId → Nat} (hgrown : h.volume.Grown h'.volume)
    (hnumber : h'.nextNumber = h.nextNumber)
    (hengines : h'.engines = h.engines.insert n o')
    (hclaim : o'.claim = o.claim) (hmedium : o'.medium = o.medium)
    (hcarrying : o'.engine.Carrying counts) :
    Kept (update owners n o'.owners) (update carried n counts) (some n)
      h' := by
  have hfind (m : Nat) :
      h'.engines[m]? = if m = n then some o' else h.engines[m]? := by
    rw [hengines]
    exact OrderedMap.getElem?_insert h.engines n m o'
  refine ⟨hkept.orderly.replaced ho hgrown hnumber hengines hclaim hmedium,
    fun m u hu => ?_, fun m hm => ?_, fun m hm hloose => ?_⟩
  · rw [hfind] at hu
    split at hu
    next heq =>
      obtain rfl := Option.some.inj hu
      rw [heq, update_self, update_self]
      exact ⟨rfl, hcarrying⟩
    next hne =>
      rw [update_of_ne hne, update_of_ne hne]
      exact hkept.here m u hu
  · rw [hfind] at hm
    split at hm
    next => cases hm
    next hne =>
      rw [update_of_ne hne, update_of_ne hne]
      exact hkept.gone m hm
  · have hne : m ≠ n := fun heq => hloose (congrArg some heq.symm)
    rw [hengines, OrderedMap.mem_insert] at hm
    rw [update_of_ne hne, update_of_ne hne]
    exact hkept.tended m (hm.resolve_left hne) nofun

-- ======================================================== letting go

/-- An engine that nobody holds any more is let go of. -/
theorem ends_reap (n : Nat) :
    Edit.Ends (Kept owners carried (some n)) (reap n)
      (fun _ => Tended owners carried) (fun _ => False) := by
  refine .modify fun h hkept => ?_
  cases ho : h.engines[n]? with
  | none =>
      refine hkept.tend fun hn => ?_
      obtain ⟨o, hsome⟩ := exists_of_mem hn
      cases ho.symm.trans hsome
  | some o =>
      obtain ⟨howners, hcarrying⟩ := hkept.here n o ho
      dsimp only
      split
      -- nobody owns it and no transaction is left, so nobody misses it
      next hloose =>
        have hnobody (id : TransactionId) : carried n id = 0 := by
          rw [← hcarrying.carried_eq id]
          exact Engine.isEmpty_iff_carried.1 hloose.2 id
        have hfind (m : Nat) := OrderedMap.getElem?_erase h.engines n m
        refine ⟨hkept.orderly.erased ho, fun m u hu => ?_, fun m hm => ?_,
          fun m hm _ => ?_⟩
        · rw [hfind] at hu
          split at hu
          next => cases hu
          next => exact hkept.here m u hu
        · by_cases heq : m = n
          · rw [heq, ← howners]
            exact ⟨hloose.1, hnobody⟩
          · rw [hfind, if_neg heq] at hm
            exact hkept.gone m hm
        · obtain ⟨hne, hm⟩ := OrderedMap.mem_erase.1 hm
          exact hkept.tended m hm fun heq => hne (Option.some.inj heq).symm
      next hheld =>
        refine hkept.tend fun _ => ?_
        rw [← howners]
        rcases Decidable.not_and_iff_or_not.1 hheld with hne | hsome
        · exact .inl hne
        · obtain ⟨id, hid⟩ :=
            not_forall.1 (mt Engine.isEmpty_iff_carried.2 hsome)
          exact .inr ⟨id, hcarrying.carried_eq id ▸ hid⟩

-- ============================================================ its owners

theorem ends_share (n : Nat) :
    Edit.Ends (fun h => Tended owners carried h ∧ owners n ≠ 0) (share n)
      (fun _ => Tended (update owners n (owners n + 1)) carried)
      (fun _ => False) := by
  refine .modify fun h ⟨hkept, hn⟩ => ?_
  obtain ⟨o, ho⟩ := exists_of_mem (hkept.mem_of_owners hn)
  obtain ⟨howners, hcarrying⟩ := hkept.here n o ho
  let o' : OpenEngine := { o with owners := o.owners + 1 }
  let after : Host := { h with engines := h.engines.insert n o' }
  have hafter : Kept (update owners n o'.owners) (update carried n _) _ after :=
    hkept.replaced ho (.refl h.volume) rfl rfl rfl rfl hcarrying
  rw [update_eq_self] at hafter
  rw [ho, ← howners]
  refine hafter.tend fun _ => .inl ?_
  rw [update_self]
  exact Nat.succ_ne_zero _

theorem ends_release (n : Nat) :
    Edit.Ends (Tended owners carried) (release n)
      (fun _ => Tended (update owners n (owners n - 1)) carried)
      (fun _ => False) := by
  refine Edit.Ends.bind (.modify fun h hkept => ?_) fun _ => ends_reap n
  cases ho : h.engines[n]? with
  | none =>
      have hnobody : owners n - 1 = owners n := by
        rw [(hkept.gone n ho).1]
      rw [hnobody, update_eq_self]
      exact hkept.loosened n
  | some o =>
      obtain ⟨howners, hcarrying⟩ := hkept.here n o ho
      let o' : OpenEngine := { o with owners := o.owners - 1 }
      let after : Host := { h with engines := h.engines.insert n o' }
      have hafter : Kept (update owners n o'.owners) (update carried n _) _
          after := hkept.replaced ho (.refl h.volume) rfl rfl rfl rfl hcarrying
      rw [update_eq_self] at hafter
      rw [← howners]
      exact hafter

/-- A directory that is opened gives a new engine with one owner. -/
theorem ends_openDirectory (path : String) (config : Config) :
    Edit.Ends (Tended owners carried) (openDirectory path config)
      (fun n => Tended (update owners n (owners n + 1)) carried)
      (Tended owners carried) := by
  intro h hkept
  have hopened := openDirectory_opened h path config
  generalize (openDirectory path config).run h = result at hopened
  have hfailed {v : Volume} (hgrown : h.volume.Grown v) :
      Tended owners carried { h with volume := v } :=
    { hkept with orderly := hkept.orderly.grown hgrown }
  cases hopened with
  | locked hgrown _ _ => exact hfailed hgrown
  | refused hgrown _ _ => exact hfailed hgrown
  | @opened v o lock hwithin hlocks hlockable hfree hfresh =>
      obtain ⟨hnobody, hnothing⟩ :=
        hkept.gone h.nextNumber hkept.orderly.none_fresh
      have hfind := engines_withEngine h v o
      refine ⟨hkept.orderly.opened hwithin hlocks hlockable hfree hfresh,
        fun m u hu => ?_, fun m hm => ?_, fun m hm _ => ?_⟩
      · rw [hfind] at hu
        split at hu
        next heq =>
          obtain rfl := Option.some.inj hu
          rw [heq, update_self, hnobody]
          refine ⟨hfresh.owners_eq, hfresh.serial, fun id => ?_⟩
          rw [hnothing id]
          exact Engine.carried_of_none (hfresh.none_begun id)
        next hne =>
          rw [update_of_ne hne]
          exact hkept.here m u hu
      · rw [hfind] at hm
        split at hm
        next => cases hm
        next hne =>
          rw [update_of_ne hne]
          exact hkept.gone m hm
      · by_cases heq : m = h.nextNumber
        · rw [heq, update_self]
          exact .inl (Nat.succ_ne_zero _)
        · rw [update_of_ne heq]
          exact hkept.tended m ((OrderedMap.mem_insert.1 hm).resolve_left heq)
            nofun

-- ===================================================== steps of an engine

/-- The host with an engine after a step. -/
def settled (h : Host) (n : Nat) (o : OpenEngine) (engine : Engine) : Host :=
  let h := { h with engines := h.engines.insert n { o with engine } }
  match engine.log with
  | none => h
  | some log => keepSwitch o.switch log.store (keep o.medium log.store h)

theorem run_onEngine (ho : h.engines[n]? = some o) (step : Edit Engine α) :
    (onEngine n step).run h
      = match step.run (h.refreshed o) with
        | .ok a e => .ok a (h.settled n o e)
        | .error err e => .error err (h.settled n o e) := by
  unfold onEngine
  dsimp only [EStateM.run]
  rw [ho]
  rfl

/-- A step of an engine that is there leaves the host settled with it. -/
theorem ends_onEngine (ho : h.engines[n]? = some o) {step : Edit Engine α}
    {Q : α → Host → Prop} {E : Host → Prop}
    (hstep : Edit.Ends (· = h.refreshed o) step
      (fun a e => Q a (h.settled n o e)) (fun e => E (h.settled n o e))) :
    Edit.Ends (· = h) (onEngine n step) Q E := by
  intro h' heq
  subst heq
  have hends := hstep _ rfl
  rw [run_onEngine ho]
  cases hrun : step.run (h'.refreshed o) with
  | ok a e =>
      rw [hrun] at hends
      exact hends
  | error err e =>
      rw [hrun] at hends
      exact hends

/-- A step of an engine that is gone changes nothing, and ends as it would in
one that never had a transaction. -/
theorem ends_onEngine_gone (hgone : h.engines[n]? = none)
    {step : Edit Engine α} {Q : α → Host → Prop} {E : Host → Prop}
    (hstep : Edit.Ends (Carrying fun _ => 0) step (fun a _ => Q a h)
      (fun _ => E h)) :
    Edit.Ends (· = h) (onEngine n step) Q E := by
  intro h' heq
  subst heq
  have hends := hstep default (Engine.carrying_starting ..)
  unfold onEngine
  dsimp only [EStateM.run] at hends ⊢
  rw [hgone]
  dsimp only
  cases hrun : step default with
  | ok a e =>
      rw [hrun] at hends
      exact hends
  | error err e =>
      rw [hrun] at hends
      exact hends

theorem engines_keepSwitch (switch : Option Nat) (store : Store) (h : Host) :
    (keepSwitch switch store h).engines = h.engines
      ∧ (keepSwitch switch store h).volume = h.volume
      ∧ (keepSwitch switch store h).nextNumber = h.nextNumber := by
  unfold keepSwitch
  split <;> exact ⟨rfl, rfl, rfl⟩

theorem carrying_refreshed (h : Host) (o : OpenEngine)
    {counts : TransactionId → Nat} (hcarrying : o.engine.Carrying counts) :
    (h.refreshed o).Carrying counts := by
  unfold refreshed
  split
  next => exact hcarrying
  next => exact hcarrying.logged _

/-- A step leaves all but its own engine and the contents of files. -/
theorem Orderly.settled (horder : h.Orderly) (ho : h.engines[n]? = some o)
    (e : Engine) :
    h.volume.Grown (h.settled n o e).volume
      ∧ (h.settled n o e).nextNumber = h.nextNumber
      ∧ (h.settled n o e).engines
        = h.engines.insert n { o with engine := e } := by
  unfold Host.settled
  cases e.log with
  | none => exact ⟨.refl _, rfl, rfl⟩
  | some log =>
      dsimp only
      obtain ⟨hengines, hvolume, hnumber⟩ := engines_keepSwitch o.switch
        log.store (keep o.medium log.store
          { h with engines := h.engines.insert n { o with engine := e } })
      rw [hengines, hvolume, hnumber]
      have hfiled := horder.filed n
      rw [mediumOf?_of_some ho] at hfiled
      cases hmedium : o.medium with
      | none => exact ⟨.refl _, rfl, rfl⟩
      | memory store => exact ⟨.refl _, rfl, rfl⟩
      | file place =>
          obtain ⟨bytes, hentry⟩ := hfiled place (congrArg some hmedium)
          exact ⟨Volume.grown_put_file hentry, rfl, rfl⟩

/-- What a step makes of the transactions of an engine it makes of those on
the host. -/
theorem Kept.settled (hkept : Tended owners carried h)
    (ho : h.engines[n]? = some o) {e : Engine} {counts : TransactionId → Nat}
    (he : e.Carrying counts) :
    Kept owners (update carried n counts) (some n) (h.settled n o e) := by
  obtain ⟨hgrown, hnumber, hengines⟩ := hkept.orderly.settled ho e
  have hreplaced := hkept.replaced ho hgrown hnumber hengines rfl rfl he
  rw [(hkept.here n o ho).1, update_eq_self] at hreplaced
  exact hreplaced

/-- A step that ends with the same transactions. -/
theorem Kept.settled_same (hkept : Tended owners carried h)
    (ho : h.engines[n]? = some o) {e : Engine}
    (he : e.Carrying (carried n)) :
    Tended owners carried (h.settled n o e) := by
  have hafter := hkept.settled ho he
  rw [update_eq_self] at hafter
  have hn : n ∈ h.engines :=
    Std.TreeMap.mem_iff_isSome_getElem?.2 (Option.isSome_of_eq_some ho)
  exact hafter.tend fun _ => hkept.tended n hn nofun

theorem Kept.refreshed (hkept : Tended owners carried h)
    (ho : h.engines[n]? = some o) (e : Engine) (he : e = h.refreshed o) :
    e.Carrying (carried n) :=
  he ▸ carrying_refreshed h o (hkept.here n o ho).2

-- ====================================================== its transactions

/-- A transaction is begun in an engine with an owner, or none is. -/
theorem ends_beginning {step : Edit Engine α}
    {begun : α → Option TransactionId}
    (hstep : Edit.Ends (Carrying (carried n)) step
      (fun a => Carrying (withOne (carried n) (begun a))) (fun _ => False)) :
    Edit.Ends (fun h => Tended owners carried h ∧ owners n ≠ 0)
      (onEngine n step)
      (fun a => Tended owners
        (update carried n (withOne (carried n) (begun a))))
      (fun _ => False) := by
  rintro h ⟨hkept, hn⟩
  obtain ⟨o, ho⟩ := exists_of_mem (hkept.mem_of_owners hn)
  refine ends_onEngine ho (hstep.weaken (hkept.refreshed ho) (fun a e he => ?_)
    fun _ hfalse => hfalse.elim) h rfl
  exact (hkept.settled ho he).tend fun _ => .inl hn

/-- A transaction is dropped, and the engine with it if nobody holds it
then. -/
theorem ends_dropTransaction (n : Nat) (id : TransactionId) :
    Edit.Ends (Tended owners carried) (dropTransaction n id)
      (fun _ => Tended owners (update carried n (without (carried n) id)))
      (fun _ => False) := by
  refine Edit.Ends.bind (fun h hkept => ?_) fun _ => ends_reap n
  cases ho : h.engines[n]? with
  | none =>
      refine ends_onEngine_gone ho ((Engine.ends_drop _ id).weaken
        (fun _ he => he) (fun _ _ _ => ?_) fun _ hfalse => hfalse.elim) h rfl
      rw [hkept.update_gone ho]
      exact hkept.loosened n
  | some o =>
      exact ends_onEngine ho ((Engine.ends_drop (carried n) id).weaken
        (hkept.refreshed ho) (fun _ _ he => hkept.settled ho he)
        fun _ hfalse => hfalse.elim) h rfl

/-- A writer goes on to read; if it cannot it is gone. -/
theorem ends_commitAndRead (n : Nat) (id : TransactionId) :
    Edit.Ends (Tended owners carried) (onEngine n (Engine.commitAndRead id))
      (fun _ => Tended owners carried)
      (Kept owners (update carried n (without (carried n) id)) (some n)) := by
  intro h hkept
  cases ho : h.engines[n]? with
  | none =>
      refine ends_onEngine_gone ho ((Engine.ends_commitAndRead _ id).weaken
        (fun _ he => he) (fun _ _ _ => hkept) fun _ _ => ?_) h rfl
      rw [hkept.update_gone ho]
      exact hkept.loosened n
  | some o =>
      refine ends_onEngine ho ((Engine.ends_commitAndRead (carried n)
        id).weaken (hkept.refreshed ho) (fun _ _ he => ?_)
        fun _ he => hkept.settled ho he) h rfl
      exact hkept.settled_same ho he

/-- Whatever else is done in an engine, those who hold it are the same. -/
theorem preserves_lingering (n : Nat) {c : Call} (hc : c.lingers = true) :
    Edit.Preserves (Tended owners carried) (onEngine n c.run) := by
  intro h hkept
  cases ho : h.engines[n]? with
  | none =>
      exact ends_onEngine_gone ho ((Engine.preserves_lingering _ hc).weaken
        (fun _ he => he) (fun _ _ _ => hkept) fun _ _ => hkept) h rfl
  | some o =>
      exact ends_onEngine ho ((Engine.preserves_lingering (carried n)
        hc).weaken (hkept.refreshed ho) (fun _ _ he => hkept.settled_same ho he)
        fun _ he => hkept.settled_same ho he) h rfl

end Colonnade.Host
