/-
A database directory is locked exactly while somebody holds an engine on it.
What holds an engine is a database or a transaction at hand, be the
transaction active or ended; tables and objects hold nothing.

The books of a desk are `Balanced` if every engine has as many owners as
there are names for it among the databases, and carries each transaction that
there is a name for and no other, once. In between a thing may be in hand: it
was taken from the host and has no name yet, or it has lost its name and is
still to be given back. Every step of a move keeps the books balanced with
what is in hand, and at the end of a move, failed or not, nothing is. So an
engine is there exactly while it is held.

With `Host.Orderly` this tells which files are locked, and with
`Host.Decided` what opening comes to.

Chain: the last on locks; on `Host.Owned` for what a host makes of owners and
transactions.
-/
import Colonnade.Host.Desk
import Colonnade.Proofs.Host.Owned
import Colonnade.Proofs.Tally

namespace Colonnade

-- ============================================================== the moves

/-- What one who works on a desk can do that has a part in who holds what. A
call is one that begins and drops nothing: it commits, rolls back, moves to
another version, or goes through a handle. Which tables and objects are at
hand may change at any time. -/
inductive Move where
  | openDirectory (name path : String) (config : Config)
  | cloneDatabase (name copy : String)
  | dropDatabase (name : String)
  | beginRead (database name : String)
  | beginWrite (database name : String)
  | tryBeginWrite (database name : String)
  | call (n : Nat) (c : Call) (hc : c.lingers = true)
  | handOff (name reader : String)
  | dropTransaction (name : String)
  | handles (tables : Names (Nat × TableHandle))
      (objects : Names (Nat × ObjectHandle))

open Desk in
/-- The steps of a move. -/
def Move.work : Move → Work Unit
  | openDirectory name path config => do
    let n ← onHost (Host.openDirectory path config)
    keepDatabase name n
  | cloneDatabase name copy => Desk.cloneDatabase name copy
  | dropDatabase name => Desk.dropDatabase name
  | beginRead database name => do
    let n ← lookUp databases database
    let id ← onEngine n Engine.beginRead
    keepTransaction name n id
  | beginWrite database name => do
    let n ← lookUp databases database
    let id ← Desk.beginWrite n
    keepTransaction name n id
  | tryBeginWrite database name => do
    let n ← lookUp databases database
    if let some id ← onEngine n Engine.beginWrite? then
      keepTransaction name n id
  | call n c _ => onEngine n c.run
  | handOff name reader => do
    let (n, id) ← commitAndRead name
    keepTransaction reader n id
  | dropTransaction name => Desk.dropTransaction name
  | handles tables objects => modify fun d => { d with tables, objects }

namespace Desk

/-- A desk with nothing at hand, over some files and directories. -/
def starting (entries : Std.TreeMap Place VolumeEntry) : Desk :=
  { host := { volume := { entries } } }

/-- The desk after a move, whether it has failed or not. -/
def afterMove (d : Desk) (m : Move) : Desk :=
  match m.work.run d with
  | .ok _ d' | .error _ d' => d'

/-- The desk after some moves. -/
def after (d : Desk) (moves : List Move) : Desk := moves.foldl afterMove d

/-- Whether a database or a transaction at hand belongs to an engine. -/
def Holds (d : Desk) (n : Nat) : Prop :=
  (∃ name : String, d.databases[name]? = some n)
    ∨ ∃ (name : String) (id : TransactionId),
      d.transactions[name]? = some (n, id)

-- ============================================================== the books

open OrderedMap (tally tally_pos tally_insert tally_erase tally_empty)
open Function (update)

/-- What has no name yet, or has one no longer. -/
structure Hand where
  owner : Option Nat := none
  transaction : Option (Nat × TransactionId) := none

variable {d : Desk} {hand : Hand} {n : Nat} {id : TransactionId} {α : Type}
  {name : String}

/-- How many things at hand, or in hand, are owners of an engine. -/
def owners (d : Desk) (hand : Hand) (n : Nat) : Nat :=
  tally d.databases n + if hand.owner = some n then 1 else 0

/-- How often a transaction is at hand or in hand. -/
def carried (d : Desk) (hand : Hand) (n : Nat) (id : TransactionId) : Nat :=
  tally d.transactions (n, id)
    + if hand.transaction = some (n, id) then 1 else 0

/-- Whether the host has the owners and the transactions that are at hand or
in hand, and no engine besides. -/
def Balanced (hand : Hand) (d : Desk) : Prop :=
  d.host.Tended (d.owners hand) (d.carried hand)

-- ===================================================== things in hand

/-- An owner at hand counts as one. -/
theorem owners_given (d : Desk) (n : Nat) :
    update (d.owners {}) n (d.owners {} n + 1)
      = d.owners { owner := some n } := by
  funext m
  unfold owners
  rw [Function.update_apply]
  by_cases heq : m = n
  · subst heq
    simp
  · simp [heq, Ne.symm heq]

/-- An owner that is released counts no more. -/
theorem owners_released (d : Desk) (n : Nat) :
    update (d.owners { owner := some n }) n
        (d.owners { owner := some n } n - 1) = d.owners {} := by
  funext m
  unfold owners
  rw [Function.update_apply]
  by_cases heq : m = n
  · subst heq
    simp
  · simp [heq, Ne.symm heq]

/-- A transaction at hand counts as one. -/
theorem carried_begun (d : Desk) (n : Nat) (id? : Option TransactionId) :
    update (d.carried {}) n (Engine.withOne (d.carried {} n) id?)
      = d.carried { transaction := id?.map (n, ·) } := by
  funext m a
  unfold carried Engine.withOne
  rw [Function.update_apply]
  by_cases heq : m = n
  · subst heq
    cases id? <;> simp
  · cases id? <;> simp [heq, Ne.symm heq]

/-- A transaction that is dropped counts no more. -/
theorem carried_dropped (d : Desk) (n : Nat) (id : TransactionId)
    (hle : d.carried { transaction := some (n, id) } n id ≤ 1) :
    update (d.carried { transaction := some (n, id) }) n (Engine.without
        (d.carried { transaction := some (n, id) } n) id) = d.carried {} := by
  funext m a
  unfold carried Engine.without at *
  rw [Function.update_apply]
  by_cases heq : m = n
  · subst heq
    rw [if_pos rfl, Function.update_apply]
    by_cases ha : a = id
    · subst ha
      have hnamed : tally d.transactions (m, a) = 0 := by simpa using hle
      simp [hnamed]
    · simp [ha, Ne.symm ha]
  · simp [heq, Ne.symm heq]

/-- Where something is put under a name, what was there is in hand. -/
theorem Balanced.keepDatabase (h : Balanced { owner := some n } d)
    (name : String) :
    Balanced { owner := d.databases[name]? }
      { d with databases := d.databases.insert name n } := by
  have howners : d.owners { owner := some n }
      = owners { d with databases := d.databases.insert name n }
        { owner := d.databases[name]? } :=
    funext fun m => (tally_insert d.databases name n m).symm
  unfold Balanced
  rw [← howners]
  exact h

/-- A database that is taken from its name is at hand. -/
theorem Balanced.takeDatabase (h : Balanced {} d) (name : String) :
    Balanced { owner := d.databases[name]? }
      { d with databases := d.databases.erase name } := by
  have howners : d.owners {}
      = owners { d with databases := d.databases.erase name }
        { owner := d.databases[name]? } :=
    funext fun m => (tally_erase d.databases name m).symm
  unfold Balanced
  rw [← howners]
  exact h

/-- A transaction that is given a name is at hand no more. -/
theorem Balanced.keepTransaction
    (h : Balanced { transaction := some (n, id) } d) (name : String) :
    Balanced { transaction := d.transactions[name]? }
      { d with transactions := d.transactions.insert name (n, id) } := by
  have hcarried : d.carried { transaction := some (n, id) }
      = carried { d with transactions := d.transactions.insert name (n, id) }
        { transaction := d.transactions[name]? } :=
    funext fun m => funext fun a =>
      (tally_insert d.transactions name (n, id) (m, a)).symm
  unfold Balanced
  rw [← hcarried]
  exact h

/-- A transaction that is taken from its name is at hand. -/
theorem Balanced.takeTransaction (h : Balanced {} d) (name : String) :
    Balanced { transaction := d.transactions[name]? }
      { d with transactions := d.transactions.erase name } := by
  have hcarried : d.carried {}
      = carried { d with transactions := d.transactions.erase name }
        { transaction := d.transactions[name]? } :=
    funext fun m => funext fun a =>
      (tally_erase d.transactions name (m, a)).symm
  unfold Balanced
  rw [← hcarried]
  exact h

-- ========================================================= steps on a desk

section Steps

variable {P E : Desk → Prop} {Q : α → Desk → Prop}

/-- An edit of the host leaves what is at hand. -/
theorem ends_onHost {e : Edit Host α}
    (he : ∀ d, P d → Edit.Ends (· = d.host) e
      (fun a host => Q a { d with host }) (fun host => E { d with host })) :
    Edit.Ends P (onHost e) Q E := by
  intro d hd
  have hends := he d hd d.host rfl
  unfold onHost
  dsimp only [EStateM.run] at hends ⊢
  cases hrun : e d.host with
  | ok a host =>
      rw [hrun] at hends
      exact hends
  | error err host =>
      rw [hrun] at hends
      exact hends

/-- A name that is looked up stands for what it is kept for. -/
theorem ends_lookUp {β : Type} {names : Desk → Names β}
    (hE : ∀ d, P d → E d) :
    Edit.Ends P (lookUp names name)
      (fun b d => P d ∧ (names d)[name]? = some b) E := by
  intro d hd
  unfold lookUp
  rw [EStateM.run_bind, EStateM.run_get]
  dsimp only
  cases hfound : (names d)[name]? with
  | some b => exact ⟨hd, hfound⟩
  | none => exact hE d hd

end Steps

/-- An engine with a name has an owner. -/
theorem owners_of_name (hfound : d.databases[name]? = some n) :
    d.owners hand n ≠ 0 := by
  have hpos : 0 < tally d.databases n := tally_pos.2 ⟨name, hfound⟩
  unfold owners
  omega

-- ============================================================= databases

/-- Opening a directory gives an owner at hand. -/
theorem ends_openDirectory (path : String) (config : Config) :
    Edit.Ends (Balanced {}) (onHost (Host.openDirectory path config))
      (fun n => Balanced { owner := some n }) (Balanced {}) := by
  refine ends_onHost fun d hd => ?_
  have hopens : Edit.Ends (Host.Tended (d.owners {}) (d.carried {})) _ _ _ :=
    Host.ends_openDirectory path config
  simp only [owners_given] at hopens
  exact hopens.weaken (fun _ heq => heq ▸ hd) (fun _ _ h => h) fun _ h => h

/-- Sharing a database gives one more owner at hand. -/
theorem ends_share (n : Nat) :
    Edit.Ends (fun d => Balanced {} d ∧ d.databases[name]? = some n)
      (onHost (Host.share n)) (fun _ => Balanced { owner := some n })
      (Balanced {}) := by
  refine ends_onHost fun d ⟨hd, hfound⟩ => ?_
  have hshares : Edit.Ends (fun h => Host.Tended (d.owners {})
      (d.carried {}) h ∧ d.owners {} n ≠ 0) _ _ _ := Host.ends_share n
  rw [owners_given] at hshares
  exact hshares.weaken (fun _ heq => heq ▸ ⟨hd, owners_of_name hfound⟩)
    (fun _ _ h => h) fun _ hfalse => hfalse.elim

/-- Releasing the owner at hand keeps the balance. -/
theorem ends_release (n : Nat) :
    Edit.Ends (Balanced { owner := some n }) (onHost (Host.release n))
      (fun _ => Balanced {}) (Balanced {}) := by
  refine ends_onHost fun d hd => ?_
  have hreleases : Edit.Ends
      (Host.Tended (d.owners { owner := some n }) (d.carried {})) _ _ _ :=
    Host.ends_release n
  rw [owners_released] at hreleases
  exact hreleases.weaken (fun _ heq => heq ▸ hd) (fun _ _ h => h)
    fun _ hfalse => hfalse.elim

/-- What is in hand is given back. -/
theorem ends_release? (old? : Option Nat) :
    Edit.Ends (Balanced { owner := old? })
      (do if let some old := old? then onHost (Host.release old) : Work Unit)
      (fun _ => Balanced {}) (Balanced {}) := by
  cases old? with
  | none => exact .pure fun _ h => h
  | some old => exact ends_release old

/-- A database is kept with the owner at hand, and gives up the one it
replaces. -/
theorem ends_keepDatabase (name : String) (n : Nat) :
    Edit.Ends (Balanced { owner := some n }) (keepDatabase name n)
      (fun _ => Balanced {}) (Balanced {}) := by
  refine Edit.Ends.get_bind fun d hd => ?_
  refine Edit.Ends.bind (Q := fun _ => Balanced { owner := d.databases[name]? })
    (.modify fun s hs => ?_) fun _ => ends_release? d.databases[name]?
  subst hs
  exact hd.keepDatabase name

/-- Cloning keeps the balance. -/
theorem preserves_cloneDatabase (name copy : String) :
    Edit.Preserves (Balanced {}) (cloneDatabase name copy) := by
  refine Edit.Ends.bind (ends_lookUp fun _ h => h) fun n => ?_
  exact Edit.Ends.bind (ends_share n) fun _ => ends_keepDatabase copy n

/-- Dropping a database keeps the balance. -/
theorem preserves_dropDatabase (name : String) :
    Edit.Preserves (Balanced {}) (dropDatabase name) := by
  refine Edit.Ends.bind (ends_lookUp fun _ h => h) fun n => ?_
  refine Edit.Ends.bind (Q := fun _ => Balanced { owner := some n })
    (.modify fun d ⟨hd, hfound⟩ => ?_) fun _ => ends_release n
  rw [← hfound]
  exact hd.takeDatabase name

-- ========================================================== transactions

/-- A transaction is begun, or none is, in a database at hand. -/
theorem ends_beginning {step : Edit Engine α}
    {begun : α → Option TransactionId}
    (hstep : ∀ count, Edit.Ends (Engine.Carrying count) step
      (fun a => Engine.Carrying (Engine.withOne count (begun a)))
      (fun _ => False)) (n : Nat) :
    Edit.Ends (fun d => Balanced {} d ∧ d.databases[name]? = some n)
      (onEngine n step)
      (fun a => Balanced { transaction := (begun a).map (n, ·) })
      (Balanced {}) := by
  refine ends_onHost fun d ⟨hd, hfound⟩ => ?_
  have hbegins : Edit.Ends (fun h => Host.Tended (d.owners {})
      (d.carried {}) h ∧ d.owners {} n ≠ 0) _ _ _ :=
    Host.ends_beginning (hstep (d.carried {} n))
  simp only [carried_begun] at hbegins
  exact hbegins.weaken (fun _ heq => heq ▸ ⟨hd, owners_of_name hfound⟩)
    (fun _ _ h => h) fun _ hfalse => hfalse.elim

/-- Beginning to write gives a transaction at hand if it succeeds. -/
theorem ends_beginWrite (n : Nat) :
    Edit.Ends (fun d => Balanced {} d ∧ d.databases[name]? = some n)
      (beginWrite n)
      (fun id => Balanced { transaction := some (n, id) }) (Balanced {}) := by
  refine Edit.Ends.get_bind fun d hd => ?_
  split
  next => exact .throw fun s hs => hs ▸ hd.1
  next =>
    refine Edit.Ends.bind ((ends_beginning Engine.ends_beginWrite? n).weaken
      (fun s hs => hs ▸ hd) (fun _ _ h => h) fun _ h => h) fun id? => ?_
    cases id? with
    | none => exact .throw fun _ h => h
    | some id => exact .pure fun _ h => h

/-- Dropping the transaction at hand keeps the balance. -/
theorem ends_drop (n : Nat) (id : TransactionId) :
    Edit.Ends (Balanced { transaction := some (n, id) })
      (onHost (Host.dropTransaction n id)) (fun _ => Balanced {})
      (Balanced {}) := by
  refine ends_onHost fun d hd => ?_
  have hdrops : Edit.Ends (Host.Tended (d.owners {})
      (d.carried { transaction := some (n, id) })) _ _ _ :=
    Host.ends_dropTransaction n id
  rw [carried_dropped d n id (hd.carried_le n id)] at hdrops
  exact hdrops.weaken (fun _ heq => heq ▸ hd) (fun _ _ h => h)
    fun _ hfalse => hfalse.elim

theorem ends_drop? (old? : Option (Nat × TransactionId)) :
    Edit.Ends (Balanced { transaction := old? })
      (do
        if let some (m, old) := old? then
          onHost (Host.dropTransaction m old) : Work Unit)
      (fun _ => Balanced {}) (Balanced {}) := by
  cases old? with
  | none => exact .pure fun _ h => h
  | some old => exact ends_drop old.1 old.2

/-- A transaction is kept with the one at hand, and drops the one it replaces.
-/
theorem ends_keepTransaction (name : String) (n : Nat) (id : TransactionId) :
    Edit.Ends (Balanced { transaction := some (n, id) })
      (keepTransaction name n id) (fun _ => Balanced {}) (Balanced {}) := by
  refine Edit.Ends.get_bind fun d hd => ?_
  refine Edit.Ends.bind
    (Q := fun _ => Balanced { transaction := d.transactions[name]? })
    (.modify fun s hs => ?_) fun _ => ends_drop? d.transactions[name]?
  subst hs
  exact hd.keepTransaction name

/-- Taking a transaction gives it to the hand. -/
theorem ends_takeTransaction (name : String) :
    Edit.Ends (Balanced {}) (takeTransaction name)
      (fun t => Balanced { transaction := some t }) (Balanced {}) := by
  refine Edit.Ends.bind (ends_lookUp fun _ h => h) fun t => ?_
  refine Edit.Ends.bind (Q := fun _ => Balanced { transaction := some t })
    (.modify fun d ⟨hd, hfound⟩ => ?_) fun _ => .pure fun _ h => h
  rw [← hfound]
  exact hd.takeTransaction name

/-- Dropping a named transaction keeps the balance. -/
theorem preserves_dropTransaction (name : String) :
    Edit.Preserves (Balanced {}) (dropTransaction name) :=
  Edit.Ends.bind (ends_takeTransaction name) fun t => ends_drop t.1 t.2

/-- Whether the books are balanced but for an engine that may be let go
of. -/
def Loose (n : Nat) (d : Desk) : Prop :=
  d.host.Kept (d.owners {}) (d.carried {}) (some n)

/-- Behind a transaction that has ended, reaping restores the balance. -/
theorem ends_reap (n : Nat) :
    Edit.Ends (Loose n) (onHost (Host.reap n)) (fun _ => Balanced {})
      (Balanced {}) := by
  refine ends_onHost fun d hd => ?_
  have hreaps : Edit.Ends (Host.Kept (d.owners {}) (d.carried {}) (some n))
      _ _ _ := Host.ends_reap n
  exact hreaps.weaken (fun _ heq => heq ▸ hd) (fun _ _ h => h)
    fun _ hfalse => hfalse.elim

/-- A writer that goes on to read is in hand afterwards; one that cannot is
gone, and its engine with it if nobody else holds it. -/
theorem ends_commitAndRead (name : String) :
    Edit.Ends (Balanced {}) (commitAndRead name)
      (fun t => Balanced { transaction := some t }) (Balanced {}) := by
  refine Edit.Ends.bind (ends_takeTransaction name) fun ⟨n, id⟩ => ?_
  refine Edit.Ends.bind (Q := Edit.Handed
    (fun _ => Balanced { transaction := some (n, id) }) (Loose n))
    (ends_onHost fun d hd => ?_) fun outcome => ?_
  · have hcommits : Edit.Ends (Host.Tended (d.owners {})
        (d.carried { transaction := some (n, id) })) _ _ _ :=
      Host.ends_commitAndRead n id
    rw [carried_dropped d n id (hd.carried_le n id)] at hcommits
    have hattempt : Edit.Ends _ _ _ fun _ => False := hcommits.attempt
    refine hattempt.weaken (fun _ heq => heq ▸ hd) (fun outcome host h => ?_)
      fun _ hfalse => hfalse.elim
    cases outcome <;> exact h
  · cases outcome with
    | ok u => exact .pure fun _ h => h
    | error err =>
        exact Edit.Ends.bind (ends_reap n) fun _ => .throw fun _ h => h

/-- A call that ends no transaction keeps the balance. -/
theorem preserves_call (n : Nat) {c : Call} (hc : c.lingers = true) :
    Edit.Preserves (Balanced {}) (onEngine n c.run) := by
  refine ends_onHost fun d hd => ?_
  have hcall : Edit.Preserves (Host.Tended (d.owners {}) (d.carried {})) _ :=
    Host.preserves_lingering n hc
  exact hcall.of_eq hd

-- ======================================================== moves and runs

/-- Every move leaves the books balanced and nothing in hand. -/
theorem preserves_work (m : Move) : Edit.Preserves (Balanced {}) m.work := by
  cases m with
  | openDirectory name path config =>
      exact Edit.Ends.bind (ends_openDirectory path config) fun n =>
        ends_keepDatabase name n
  | cloneDatabase name copy => exact preserves_cloneDatabase name copy
  | dropDatabase name => exact preserves_dropDatabase name
  | beginRead database name =>
      refine Edit.Ends.bind (ends_lookUp fun _ h => h) fun n => ?_
      have hbegins (id : TransactionId) :
          Edit.Ends (Balanced { transaction := (some id).map (n, ·) }) _ _ _ :=
        ends_keepTransaction name n id
      exact Edit.Ends.bind (ends_beginning Engine.ends_beginRead n) hbegins
  | beginWrite database name =>
      refine Edit.Ends.bind (ends_lookUp fun _ h => h) fun n => ?_
      exact Edit.Ends.bind (ends_beginWrite n) fun id =>
        ends_keepTransaction name n id
  | tryBeginWrite database name =>
      refine Edit.Ends.bind (ends_lookUp fun _ h => h) fun n => ?_
      refine Edit.Ends.bind (ends_beginning Engine.ends_beginWrite? n)
        fun id? => ?_
      cases id? with
      | none => exact .pure fun _ h => h
      | some id => exact ends_keepTransaction name n id
  | call n c hc => exact preserves_call n hc
  | handOff name reader =>
      exact Edit.Ends.bind (ends_commitAndRead name) fun t =>
        ends_keepTransaction reader t.1 t.2
  | dropTransaction name => exact preserves_dropTransaction name
  | handles tables objects => exact .modify fun _ h => h

/-- With nothing in a volume locked and nothing open, all is in order. -/
theorem balanced_starting (entries : Std.TreeMap Place VolumeEntry) :
    Balanced {} (starting entries) := by
  have hnone (n : Nat) : (starting entries).host.engines[n]? = none :=
    Std.TreeMap.getElem?_emptyc
  have hclaim (n : Nat) : (starting entries).host.claimOf? n = none := by
    unfold Host.claimOf?
    rw [hnone]
    rfl
  have hmem (n : Nat) : n ∉ (starting entries).host.engines :=
    Std.TreeMap.not_mem_emptyc
  refine ⟨⟨fun n hn => (hmem n hn).elim, fun n c hc => ?_,
    fun n place hplace => ?_, fun p => ?_, fun m n c c' hc _ _ => ?_⟩,
    fun n o ho => ?_, fun n _ => ⟨?_, fun id => ?_⟩,
    fun n hn _ => (hmem n hn).elim⟩
  · cases (hclaim n).symm.trans hc
  · unfold Host.mediumOf? at hplace
    rw [hnone] at hplace
    cases hplace
  · refine iff_of_false List.not_mem_nil ?_
    rintro ⟨n, c, hc, -⟩
    cases (hclaim n).symm.trans hc
  · cases (hclaim m).symm.trans hc
  · cases (hnone n).symm.trans ho
  · exact congrArg (· + 0) (tally_empty n)
  · exact congrArg (· + 0) (tally_empty (n, id))

/-- Nothing is in hand between moves. -/
theorem Balanced.after {moves : List Move} (h : Balanced {} d) :
    Balanced {} (d.after moves) := by
  induction moves generalizing d with
  | nil => exact h
  | cons m moves ih =>
      have hmove := preserves_work m d h
      refine ih (d := d.afterMove m) ?_
      unfold afterMove
      cases hrun : m.work.run d with
      | ok a d' =>
          rw [hrun] at hmove
          exact hmove
      | error err d' =>
          rw [hrun] at hmove
          exact hmove

-- ========================================================== who is alive

/-- Where the books are balanced, an engine is there exactly while somebody
at hand holds it. -/
theorem Balanced.mem_engines_iff (h : Balanced {} d) (n : Nat) :
    n ∈ d.host.engines ↔ d.Holds n := by
  have howners : d.owners {} n ≠ 0 ↔ ∃ name : String,
      d.databases[name]? = some n := by
    rw [← tally_pos, ← Nat.pos_iff_ne_zero]
    exact .rfl
  have hcarried (id : TransactionId) : d.carried {} n id ≠ 0
      ↔ ∃ name : String, d.transactions[name]? = some (n, id) := by
    rw [← tally_pos, ← Nat.pos_iff_ne_zero]
    exact .rfl
  constructor
  · intro hn
    rcases h.tended n hn nofun with hown | ⟨id, hcarry⟩
    · exact .inl (howners.1 hown)
    · obtain ⟨name, hname⟩ := (hcarried id).1 hcarry
      exact .inr ⟨name, id, hname⟩
  · rintro (hname | ⟨name, id, hname⟩)
    · exact h.mem_of_owners (howners.2 hname)
    · exact h.mem_of_carried ((hcarried id).2 ⟨name, hname⟩)

/-- What is said of the locks of a desk. An engine is there exactly while a
database or a transaction at hand holds it, what is locked is what engines
that are held have claimed, and an engine is on the directory that it was
opened on. -/
structure Locked (d : Desk) : Prop where
  mem_engines_iff : ∀ n, n ∈ d.host.engines ↔ d.Holds n
  mem_locks_iff : ∀ lock, lock ∈ d.host.volume.locks
    ↔ ∃ n c, d.Holds n ∧ d.host.claimOf? n = some c ∧ c.lock = lock
  on : ∀ n c, d.host.claimOf? n = some c → d.host.On n c.path

/-- What is said of an attempt to open the directory that a path leads to. It
fails for the lock exactly if somebody at hand holds an engine on the
directory that the path leads to by then, and does so if it led there before.
Failing leaves the engines and the locks as they were; unless it was for the
lock, the directory can be opened again as far as locks go. It does not fail
on a directory that a database was left in and nobody at hand holds an engine
on. An engine that is opened is a new one on the directory, which is locked
from then on. -/
structure Opening (d : Desk) (path : String) (config : Config)
    (result : EStateM.Result Error Host Nat) : Prop where
  locked_iff : (∃ h, result = .error (.locked path) h)
    ↔ ∃ n, d.Holds n ∧ (Host.left result).On n path
  held : ∀ n, d.Holds n → d.host.On n path →
    ∃ h, result = .error (.locked path) h
  locked_path : ∀ p h, result = .error (.locked p) h → p = path
  failed : ∀ err h, result = .error err h →
    h.engines = d.host.engines ∧ h.volume.locks = d.host.volume.locks
  again : ∀ err h, result = .error err h → err ≠ .locked path →
    h.volume.isDirectory path → ∀ config p h',
      (Host.openDirectory path config).run h ≠ .error (.locked p) h'
  opens : Host.Ready d.host.volume path config →
    (∀ n, d.Holds n → ¬ d.host.On n path) → ∃ n h, result = .ok n h
  opened : ∀ n h, result = .ok n h → (¬ d.Holds n ∧ h.On n path)
    ∧ ∀ config, ∃ h', (Host.openDirectory path config).run h
      = .error (.locked path) h'

/-- In balance a directory is locked exactly while somebody holds its
database. -/
theorem Balanced.locked (h : Balanced {} d) : d.Locked where
  mem_engines_iff := h.mem_engines_iff
  mem_locks_iff lock := by
    rw [h.orderly.locked lock]
    refine exists_congr fun n => exists_congr fun c => ?_
    refine (and_iff_right_of_imp fun hc => ?_).symm
    exact (h.mem_engines_iff n).1 (Host.mem_of_claimOf? hc.1)
  on n c hc := h.orderly.on hc

/-- In balance opening a directory comes out by what the volume has there and
who holds it. -/
theorem Balanced.opening (h : Balanced {} d) (path : String)
    (config : Config) :
    d.Opening path config
      ((Host.openDirectory path config).run d.host) := by
  have hopens (hready : Host.Ready d.host.volume path config)
      (hnone : ∀ n, d.Holds n → ¬ d.host.On n path) :=
    h.orderly.run_openDirectory_ready hready fun n hon => by
      obtain ⟨c, -, hc, -, -⟩ := id hon
      exact hnone n ((h.mem_engines_iff n).1 (Host.mem_of_claimOf? hc)) hon
  have hdecided := h.orderly.decided path config
  have hkept := Host.ends_openDirectory path config d.host h
  have hstays (n : Nat) (hon : d.host.On n path) :=
    h.orderly.on_left hon path config
  generalize (Host.openDirectory path config).run d.host = result
    at hopens hdecided hkept hstays
  cases result with
  | ok n host =>
      obtain ⟨hnew, hon, hothers⟩ := hdecided
      -- the directory is free: whoever holds one holds another
      have hfree {m : Nat} (hm : d.Holds m) : ¬ host.On m path :=
        hothers m ((h.mem_engines_iff m).2 hm)
      refine ⟨iff_of_false (fun ⟨_, heq⟩ => nomatch heq) ?_,
        fun m hm hon => (hfree hm (hstays m hon)).elim,
        fun _ _ heq => (nomatch heq), fun _ _ heq => (nomatch heq),
        fun _ _ heq => (nomatch heq), hopens, fun m host' heq => ?_⟩
      · rintro ⟨m, hm, hon⟩
        exact hfree hm hon
      · cases heq
        exact ⟨⟨mt (h.mem_engines_iff n).2 hnew, hon⟩,
          fun config' => hkept.orderly.run_openDirectory_on hon config'⟩
  | error err host =>
      obtain ⟨hengines, hlocks, hpath, hlocked⟩ := hdecided
      have hholds {n : Nat} (hon : host.On n path) : d.Holds n := by
        obtain ⟨c, lock, hc, -⟩ := hon
        exact (h.mem_engines_iff n).1 (hengines ▸ Host.mem_of_claimOf? hc)
      have hfails {n : Nat} (hon : host.On n path) :
          ∃ h, EStateM.Result.error err host
            = (.error (.locked path) h : EStateM.Result Error Host Nat) :=
        ⟨host, by rw [hlocked.2 ⟨n, hon⟩]⟩
      refine ⟨?_, fun n _ hon => hfails (hstays n hon),
        fun p host' heq => ?_, fun err' host' heq => ?_,
        fun err' host' heq hother hdirectory config' => ?_, hopens,
        fun _ _ heq => (nomatch heq)⟩
      · constructor
        · rintro ⟨host', heq⟩
          cases heq
          obtain ⟨n, hon⟩ := hlocked.1 rfl
          exact ⟨n, hholds hon, hon⟩
        · rintro ⟨n, -, hon⟩
          exact hfails hon
      · cases heq
        exact hpath p rfl
      · cases heq
        exact ⟨hengines, hlocks⟩
      · cases heq
        exact hkept.orderly.run_openDirectory_ne_locked hdirectory
          (fun n hon => hother (hlocked.2 ⟨n, hon⟩)) config'

/-- After any moves, whether they succeeded or failed, a directory is locked
exactly while somebody at hand holds an engine on it, and opening it tells
so; one that a database was left in opens while nobody does, and is locked
then. -/
theorem directory_locked_while_held
    (entries : Std.TreeMap Place VolumeEntry) (moves : List Move) :
    ((starting entries).after moves).Locked
      ∧ ∀ path config, ((starting entries).after moves).Opening path config
        ((Host.openDirectory path config).run
          ((starting entries).after moves).host) := by
  have hbalanced : Balanced {} ((starting entries).after moves) :=
    (balanced_starting entries).after
  exact ⟨hbalanced.locked, hbalanced.opening⟩

-- a transaction keeps the directory locked without any database
example : (Host.openDirectory "db/" {}).run ((starting ∅).after
    [.openDirectory "a" "db" {}, .beginRead "a" "r", .dropDatabase "a"]).host
      matches .error (.locked "db/") _ := by decide +kernel

-- what a database leaves behind opens again
example : (Host.openDirectory "db" {}).run ((starting ∅).after
    [.openDirectory "a" "db" {}, .dropDatabase "a"]).host
      matches .ok _ _ := by decide +kernel

end Desk

end Colonnade
