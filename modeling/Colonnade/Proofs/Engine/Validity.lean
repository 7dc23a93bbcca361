/-
How long a handle is valid. A handle is handed out by a transaction and
carries the generation that the view of the transaction is at. From then on
it follows the transaction through whatever happens, also to others: it is
valid until the transaction is committed, rolled back, dropped or moved to
another version, and as long as what it is for is in the snapshot.

Going on to read after a commit keeps the generation, and so the handles.
Moving on counts the generation up by one, in 64 bits. A handle would be
valid again after exactly `2 ^ 64` moves (or a multiple of it), which is why
the main result counts them; below that many, no move at all is the only
way.

What a handle can be used for goes with it: if it is not valid every use is
refused and says so, and if it is valid no read is refused for its sake.

Chain: over `Engine.Turns`, which has what happens to a transaction,
`Engine.Uses`, which has what a use comes to, and `Engine.Handed`, which has
what comes back as a handle; `Engine.Isolation` counts the moves of a reader
by this.
-/
import Colonnade.Proofs.Engine.Handed
import Colonnade.Proofs.Engine.Turns
import Colonnade.Proofs.Engine.Writing

namespace Colonnade.Engine

variable {e e' : Engine} {id : TransactionId} {t t' : Transaction}
  {ev : Event} {events : List Event}

-- ======================================================== generations

/-- How many events of a run move a transaction to another version. -/
def moves (id : TransactionId) : Engine → List Event → Nat
  | _, [] => 0
  | e, ev :: evs => (ev.moves e id).toNat + moves id (ev.step e) evs

/-- A transaction that has not ended has not ended before, and only moves
count its generation up. -/
theorem Turn.follows (h : Turn e ev id (some t) (some t'))
    (hlives : ¬ t'.HasEnded) :
    ¬ t.HasEnded ∧ t'.view.generation
      = t.view.generation + UInt64.ofNat (ev.moves e id).toNat := by
  have hreads {u : Transaction} (hrole : u.role = .reader) :
      ¬ u.HasEnded := by
    rintro ⟨state, holdsSlot, hwriter, -⟩
    rw [hrole] at hwriter
    cases hwriter
  cases h with
  | worked hstill hworked =>
      refine ⟨fun hended => hlives ?_, ?_⟩
      · obtain ⟨state, holdsSlot, hrole, hstate⟩ := hended
        exact ⟨state, holdsSlot, hworked.role_eq.trans hrole, hstate⟩
      · rw [hworked.generation_eq, hstill]
        exact (UInt64.add_zero _).symm
  | rolledBack hrole hev => exact absurd ⟨_, _, rfl, nofun⟩ hlives
  | committed hrole hev hcurrent => exact absurd ⟨_, _, rfl, nofun⟩ hlives
  | handedOff hrole hev hcurrent =>
      refine ⟨?_, ?_⟩
      · rintro ⟨state, holdsSlot, hwriter, hstate⟩
        rw [hrole] at hwriter
        cases hwriter
        exact hstate rfl
      · subst hev
        exact (UInt64.add_zero _).symm
  | moved hmoves hrole hpinned =>
      refine ⟨hreads hrole, ?_⟩
      rw [hmoves]
      rfl

/-- The same of a run. -/
theorem Serial.follows (h : e.Serial) (htyped : TypedRun e events)
    (ht : e.transaction? id = some t)
    (ht' : (e.through events).transaction? id = some t')
    (hlives : ¬ t'.HasEnded) :
    ¬ t.HasEnded ∧ t'.view.generation
      = t.view.generation + UInt64.ofNat (moves id e events) := by
  induction events generalizing e t with
  | nil =>
      obtain rfl := Option.some.inj (ht.symm.trans ht')
      exact ⟨hlives, (UInt64.add_zero _).symm⟩
  | cons ev evs ih =>
      have hserial := (h.step ev).serial h
      obtain ⟨u, hu, hturn⟩ := h.stays htyped ht ht'
      obtain ⟨hlasts, hgeneration⟩ := ih hserial htyped.2 hu ht'
      obtain ⟨hlives, hfirst⟩ := hturn.follows hlasts
      refine ⟨hlives, ?_⟩
      rw [hgeneration, hfirst, UInt64.add_assoc, ← UInt64.ofNat_add]
      rfl

/-- Counting up gets back to where it began after `2 ^ 64` steps and not
before. -/
theorem add_ofNat_eq_self {g : UInt64} {n : Nat} :
    g + UInt64.ofNat n = g ↔ 2 ^ 64 ∣ n := by
  rw [UInt64.add_eq_left, Nat.dvd_iff_mod_eq_zero, ← UInt64.toNat_inj]
  exact Iff.rfl

-- ==================================================== handing out

/-- The ways in which a transaction hands out a handle: it looks a table up
or adds it, it finds what a handle of any transaction names, or one of its
handles leads on to another. The engine is what is left afterwards. -/
inductive Grants (id : TransactionId) (e : Engine) : Handle → Engine → Prop
  | table? {name : String} {h : TableHandle}
      (hfound : e.table? id name = .ok (some h)) : Grants id e (.table h) e
  | requireTable {name : String} {h : TableHandle}
      (hfound : e.requireTable id name = .ok h) : Grants id e (.table h) e
  | tableByKey? {key : TableKey} {h : TableHandle}
      (hfound : e.tableByKey? id key = .ok (some h)) :
      Grants id e (.table h) e
  | importTable? {h₀ h : TableHandle}
      (hfound : e.importTable? id h₀ = .ok (some h)) :
      Grants id e (.table h) e
  | importObject? {h₀ h : ObjectHandle}
      (hfound : e.importObject? id h₀ = .ok (some h)) :
      Grants id e (.object h) e
  | addTable {name : String} {h : TableHandle} {e' : Engine}
      (hmade : Edit.Gives (Engine.addTable id name) e h e') :
      Grants id e (.table h) e'
  | getOrAddTable {name : String} {h : TableHandle} {e' : Engine}
      (hmade : Edit.Gives (Engine.getOrAddTable id name) e h e') :
      Grants id e (.table h) e'
  | linkTarget? {h₀ h : TableHandle} {col : ColumnKey} {e' : Engine}
      (hid : h₀.anchor.transaction = id)
      (hfound : Edit.Gives (h₀.linkTarget? col) e (some h) e') :
      Grants id e (.table h) e'
  | object? {h₀ : TableHandle} {h : ObjectHandle} {key : ObjectKey}
      {e' : Engine} (hid : h₀.anchor.transaction = id)
      (hfound : Edit.Gives (h₀.object? key) e (some h) e') :
      Grants id e (.object h) e'
  | object {h₀ : TableHandle} {h : ObjectHandle} {key : ObjectKey}
      {e' : Engine} (hid : h₀.anchor.transaction = id)
      (hfound : Edit.Gives (h₀.object key) e h e') :
      Grants id e (.object h) e'
  | createObject {h₀ : TableHandle} {h : ObjectHandle} {e' : Engine}
      (hid : h₀.anchor.transaction = id)
      (hmade : Edit.Gives h₀.createObject e h e') :
      Grants id e (.object h) e'
  | getLink? {h₀ h : ObjectHandle} {col : ColumnKey} {e' : Engine}
      (hid : h₀.anchor.transaction = id)
      (hfound : Edit.Gives (h₀.getLink? col) e (some h) e') :
      Grants id e (.object h) e'

/-- What was read was read of a valid handle, and changed nothing. -/
theorem gives_isRead {α : Type} {h : Handle} {x : Edit Engine α} {a : α}
    (hx : h.IsRead x) (hgives : Edit.Gives x e a e') :
    e' = e ∧ h.isValid e = true := by
  unfold Edit.Gives at hgives
  cases hvalid : h.isValid e with
  | false =>
      obtain ⟨err, e'', hrun, -⟩ := hx.refused e hvalid
      rw [hrun] at hgives
      cases hgives
  | true =>
      cases hx.answered e hvalid with
      | ok hrun =>
          rw [hrun] at hgives
          cases hgives
          exact ⟨rfl, rfl⟩
      | failed hrun _ =>
          rw [hrun] at hgives
          cases hgives

/-- The handles made now are of the transaction that they are asked of. -/
theorem transaction_of_anchor {a : Anchor} (h : e.anchor id = .ok a) :
    a.transaction = id := by
  obtain ⟨t, -, rfl⟩ := anchor_eq_ok.1 h
  rfl

/-- A valid handle has the generation of the handles made now. -/
theorem anchor_of_isValid {h : Handle} (hid : h.anchor.transaction = id)
    (hvalid : h.isValid e = true) : e.anchor id = .ok h.anchor := by
  subst hid
  obtain ⟨t, ht, hadmits, -⟩ := Handle.isValid_iff.1 hvalid
  obtain ⟨-, hgeneration⟩ := View.admits_iff.1 hadmits
  refine anchor_eq_ok.2 ⟨t, ht, ?_⟩
  rw [hgeneration]

/-- What was written was written through a view of the handle's generation,
and left it there. -/
theorem anchor_of_write {h g : Handle} {i : Instruction}
    {build : Table → Except Error Instruction}
    (hid : h.anchor.transaction = id) (hsame : g.anchor = h.anchor)
    (hgives : Edit.Gives (h.write build) e i e') :
    e'.anchor id = .ok g.anchor := by
  subst hid
  rw [hsame]
  obtain ⟨t, view, ht, hwrite, rfl⟩ := Handle.gives_write hgives
  obtain ⟨-, hgeneration⟩ := View.admits_iff.1 (View.admits_of_write hwrite)
  rcases View.write_cases hwrite with ⟨j, -, hwrote⟩ | ⟨-, hno⟩
  · refine anchor_eq_ok.2 ⟨_, transaction?_self e _ _, ?_⟩
    show h.anchor = ⟨h.anchor.transaction, view.generation⟩
    rw [hwrote.generation_eq, hgeneration]
  · exact absurd rfl (hno i)

/-- A read that comes back with a handle like the one it went through. -/
theorem anchor_of_read {α : Type} {h g : Handle} {x : Edit Engine α} {a : α}
    (hx : h.IsRead x) (hid : h.anchor.transaction = id)
    (hsame : g.anchor = h.anchor) (hgives : Edit.Gives x e a e') :
    e'.anchor id = .ok g.anchor := by
  obtain ⟨rfl, hvalid⟩ := gives_isRead hx hgives
  rw [hsame]
  exact anchor_of_isValid hid hvalid

/-- A handle that is handed out is at the generation that its transaction is
at. -/
theorem Grants.anchor_eq {g : Handle} (h : Grants id e g e') :
    e'.anchor id = .ok g.anchor := by
  have hlooked {t : Transaction} (ht : e.transaction? id = some t) :
      e.anchor id = .ok ⟨id, t.view.generation⟩ :=
    anchor_eq_ok.2 ⟨t, ht, rfl⟩
  cases h with
  | table? hfound =>
      obtain ⟨t, ht, u, -, rfl⟩ := table?_eq_some.1 hfound
      exact hlooked ht
  | requireTable hfound =>
      obtain ⟨t, ht, u, -, rfl⟩ :=
        table?_eq_some.1 (requireTable_eq_ok.1 hfound)
      exact hlooked ht
  | tableByKey? hfound | importTable? hfound =>
      obtain ⟨t, ht, u, -, rfl⟩ := tableByKey?_eq_some.1 hfound
      exact hlooked ht
  | importObject? hfound =>
      obtain ⟨t, ht, -, rfl⟩ := importObject?_eq_some.1 hfound
      exact hlooked ht
  | addTable hmade => exact (gives_addTable hmade).1
  | getOrAddTable hmade =>
      rcases gives_getOrAddTable hmade with ⟨hfound, rfl⟩ | hadded
      · obtain ⟨t, ht, u, -, rfl⟩ := table?_eq_some.1 hfound
        exact hlooked ht
      · exact (gives_addTable hadded).1
  -- a handle that another one gave keeps the anchor of that one
  | @linkTarget? h₀ _ col _ hid hfound =>
      exact anchor_of_read (Handle.Reads.linkTarget? h₀ col).isRead hid
        (gives_linkTarget? hfound).1 hfound
  | @object? h₀ _ key _ hid hfound =>
      exact anchor_of_read (Handle.Reads.object? h₀ key).isRead hid
        (gives_object? hfound).1 hfound
  | @object h₀ _ key _ hid hfound =>
      exact anchor_of_read (Handle.Reads.object h₀ key).isRead hid
        (gives_object? (gives_object hfound)).1 hfound
  | createObject hid hmade =>
      obtain ⟨hsame, -, _, hwrite⟩ := gives_createObject hmade
      exact anchor_of_write (h := .table _) hid hsame hwrite
  | @getLink? h₀ _ col _ hid hfound =>
      exact anchor_of_read (Handle.Reads.getLink? h₀ col).isRead hid
        (gives_getLink? hfound).1 hfound

/-- Handing a handle out is a call like any other, or nothing at all. -/
theorem Grants.call {g : Handle} (h : Grants id e g e') :
    e' = e ∨ ∃ c : Call, c.turnsOver = false ∧ e' = c.step e := by
  have hstep {α : Type} {x : Edit Engine α} {a : α} {c : Call}
      (hc : c.run = do let _ ← x) (hgives : Edit.Gives x e a e') :
      e' = c.step e := by
    have hdone := run_done x e
    rw [show x.run e = .ok a e' from hgives, ← hc] at hdone
    exact (step_of_ok hdone).symm
  cases h with
  | table? | requireTable | tableByKey? | importTable? | importObject? =>
      exact .inl rfl
  | @addTable name _ _ hmade =>
      exact .inr ⟨.addTable id name, rfl, hstep rfl hmade⟩
  | @getOrAddTable name _ _ hmade =>
      exact .inr ⟨.getOrAddTable id name, rfl, hstep rfl hmade⟩
  | @linkTarget? h₀ _ col _ _ hfound =>
      exact .inl (gives_isRead (Handle.Reads.linkTarget? h₀ col).isRead
        hfound).1
  | @object? h₀ _ key _ _ hfound =>
      exact .inl (gives_isRead (Handle.Reads.object? h₀ key).isRead
        hfound).1
  | @object h₀ _ key _ _ hfound =>
      exact .inl (gives_isRead (Handle.Reads.object h₀ key).isRead hfound).1
  | @createObject h₀ _ _ _ hmade =>
      exact .inr ⟨.createObject h₀, rfl, hstep rfl hmade⟩
  | @getLink? h₀ _ col _ _ hfound =>
      exact .inl (gives_isRead (Handle.Reads.getLink? h₀ col).isRead
        hfound).1

/-- An engine stays orderly when a handle is granted. -/
theorem Grants.orderly {g : Handle} (h : Grants id e g e') (he : e.Orderly) :
    e'.Orderly := by
  rcases h.call with rfl | ⟨c, hc, rfl⟩
  · exact he
  · have htyped : (Event.call c).Typed e := by
      cases c with
      | advance => cases hc
      | _ => trivial
    exact he.step htyped

-- =========================================================== validity

/-- A view admits a handle of its transaction unless that has ended or has
been moved to another version since the handle was handed out. -/
theorem Orderly.admits_iff (he : e.Orderly) {h : Handle}
    (hanchor : e.anchor id = .ok h.anchor) (htyped : TypedRun e events)
    (ht : (e.through events).transaction? id = some t) :
    t.view.admits h.anchor.generation = true
      ↔ ¬ t.HasEnded ∧ 2 ^ 64 ∣ moves id e events := by
  obtain ⟨u, hu, hat⟩ := anchor_eq_ok.1 hanchor
  have hsettled := (he.through htyped).settled id t ht
  rw [View.admits_iff, Ne, hsettled.closed_iff, hat]
  refine and_congr_right fun hlives => ?_
  rw [(he.serial.follows htyped hu ht hlives).2]
  exact add_ofNat_eq_self

/-- A handle follows its transaction from where it was handed out. -/
theorem Orderly.isValid_iff (he : e.Orderly) {h : Handle}
    (hanchor : e.anchor id = .ok h.anchor) (htyped : TypedRun e events) :
    h.isValid (e.through events) = true
      ↔ ∃ t, (e.through events).transaction? id = some t ∧ ¬ t.HasEnded
        ∧ 2 ^ 64 ∣ moves id e events ∧ h.LivesIn t.view.snapshot := by
  rw [Handle.isValid_iff, transaction_of_anchor hanchor]
  refine exists_congr fun t => and_congr_right fun ht => ?_
  rw [he.admits_iff hanchor htyped ht, and_assoc]

/-- A handle, or a copy of it, is valid exactly if its transaction is still
there and has not ended, no event since has moved it to another version, and
the table or object is in the snapshot that it sees. If the handle is not
valid, every use of it fails and says so, and changes nothing; if it is, no
read fails for its sake. A copy is as old as what it was copied from, and so
is the handle to the table of an object. -/
theorem handle_valid_exactly (s : Snapshot) (log : Option HistoryLog)
    (limits : Limits) {before after : List Event} {g h : Handle}
    (hbefore : TypedRun (starting s log limits) before)
    (hgrants : Grants id ((starting s log limits).through before) g e)
    (hcopy : h.anchor = g.anchor) (hafter : TypedRun e after) :
    let e' := e.through after
    (h.isValid e' = true ↔ ∃ t, e'.transaction? id = some t ∧ ¬ t.HasEnded
        ∧ 2 ^ 64 ∣ moves id e after ∧ h.LivesIn t.view.snapshot)
      ∧ (moves id e after < 2 ^ 64 → (h.isValid e' = true
        ↔ ∃ t, e'.transaction? id = some t ∧ ¬ t.HasEnded
          ∧ moves id e after = 0 ∧ h.LivesIn t.view.snapshot))
      ∧ (h.isValid e' = false →
        (∀ {α : Type} (x : Edit Engine α), h.Reads x →
          Refused (fun err => err.kind = .illegalState
            ∧ err.message = h.staleText) x e')
        ∧ ∀ {α : Type} (x : Edit Engine α), h.Writes x →
          Refused (fun err => err.kind = .illegalState) x e')
      ∧ (h.isValid e' = true → ∀ {α : Type} (x : Edit Engine α), h.Reads x →
        Answered x e') := by
  intro e'
  have he : e.Orderly :=
    hgrants.orderly ((orderly_starting s log limits).through hbefore)
  have hanchor : e.anchor id = .ok h.anchor := hcopy ▸ hgrants.anchor_eq
  have hvalid : h.isValid e' = true ↔ _ := he.isValid_iff hanchor hafter
  refine ⟨hvalid, fun hfew => ?_, fun hinvalid => ⟨?_, ?_⟩, ?_⟩
  · have hnone : 2 ^ 64 ∣ moves id e after ↔ moves id e after = 0 :=
      ⟨fun hdvd => Nat.eq_zero_of_dvd_of_lt hdvd hfew, fun hzero =>
        hzero ▸ Nat.dvd_zero _⟩
    rw [hvalid, hnone]
  · intro α x hx
    refine (hx.isRead.refused e' hinvalid).mono fun err herr => ?_
    exact herr ▸ ⟨h.kind_stale, h.message_stale⟩
  · exact fun x hx => hx.isWrite.refused e' hinvalid
  · exact fun hvalid α x hx => hx.isRead.answered e' hvalid

/-- A writer adds a table and looks it up. -/
def addsAndLooks : List Event :=
  [.call .beginWrite, .call (.addTable ⟨1⟩ "t")]

/-- It goes on to read, and another writer commits. -/
def readsOn : List Event :=
  [.call (.commitAndRead ⟨1⟩), .call .beginWrite, .call (.commit ⟨2⟩)]

/-- The handle that it found outlasts both commits and is over when it moves
on. -/
theorem handle_valid_until_advance :
    let e := (inMemory {}).through addsAndLooks
    let h : TableHandle := ⟨⟨⟨1⟩, 0⟩, ⟨0⟩⟩
    (∃ t, (e.through readsOn).transaction? ⟨1⟩ = some t ∧ ¬ t.HasEnded
        ∧ moves ⟨1⟩ e readsOn = 0
        ∧ (Handle.table h).LivesIn t.view.snapshot)
      ∧ Answered h.size (e.through readsOn)
      ∧ Refused (fun err => err.kind = .illegalState
          ∧ err.message = "Table is no longer valid to operate on.") h.size
        (e.through (readsOn ++ [.call (.advance ⟨1⟩)])) := by
  intro e h
  have hbefore : TypedRun (inMemory {}) addsAndLooks :=
    ⟨trivial, trivial, trivial⟩
  have hgrants : Grants ⟨1⟩ e (.table h) e := by
    refine @Grants.table? _ _ "t" _ ?_
    decide +kernel
  have hkept : TypedRun e readsOn := ⟨trivial, trivial, trivial, trivial⟩
  have hmoved : TypedRun e (readsOn ++ [.call (.advance ⟨1⟩)]) := by
    refine typedRun_append.2 ⟨hkept, fun t ht => ?_, trivial⟩
    have hrole : ((e.through readsOn).transaction? ⟨1⟩).map (·.role)
        = some .reader := by decide +kernel
    rw [ht] at hrole
    exact Option.some.inj hrole
  obtain ⟨-, hfew, -, hread⟩ := handle_valid_exactly .empty none _ hbefore
    hgrants rfl hkept
  obtain ⟨-, -, hover, -⟩ := handle_valid_exactly .empty none _ hbefore
    hgrants rfl hmoved
  have hvalid : (Handle.table h).isValid (e.through readsOn) = true := by
    decide +kernel
  have hinvalid : (Handle.table h).isValid
      (e.through (readsOn ++ [.call (.advance ⟨1⟩)])) = false := by
    decide +kernel
  exact ⟨(hfew (by decide +kernel)).1 hvalid, hread hvalid _ (.size h),
    (hover hinvalid).1 _ (.size h)⟩

end Colonnade.Engine
