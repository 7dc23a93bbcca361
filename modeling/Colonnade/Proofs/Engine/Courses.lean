/-
What a move does to the pins. Of a transaction the pins are concerned with
three things, its `Face`: the version it pins, the mode of its view, and the
version that the view shows. Most steps of a call leave the pins alone and
change one face at most (`Faced`). The others take a pin, give one back, move
one, or publish a version (`Posting`), and a `Course` says what becomes of
everything that the pins depend on. `Tidy.course` goes through the moves once
and finds a course for each; nothing after it takes a move apart again.

What a face must look like depends on how far the call on the transaction has
come (`Suits`). An open view shows what is pinned, but for two moments: a
commit that goes on to read shows first and pins afterwards, and a reader
that moves on pins first and shows afterwards.

Chain: over `Engine.Traffic`; `Engine.Handover` follows the courses along a
run.
-/
import Colonnade.Proofs.Engine.Traffic

namespace Colonnade

-- ============================================ what the pins are told apart by

/-- What matters to the pins about a transaction. -/
structure Face where
  pinned : Version
  mode : ViewMode
  shown : Version

/-- Whether an open view shows what is pinned. -/
def Face.Steady (f : Face) : Prop := f.mode ≠ .closed → f.shown = f.pinned

def Transaction.face (t : Transaction) : Face :=
  ⟨t.pinned, t.view.mode, t.view.snapshot.version⟩

namespace Engine

variable {e e' m : Engine} {id a : TransactionId} {t : Transaction}
  {g : Face → Face}

def face? (e : Engine) (id : TransactionId) : Option Face :=
  (e.transaction? id).map Transaction.face

theorem face?_of_some (ht : e.transaction? id = some t) :
    e.face? id = some t.face := congrArg (Option.map _) ht

/-- No pin has changed, and of one transaction at most its face. -/
structure Faced (id : TransactionId) (g : Face → Face) (e e' : Engine) :
    Prop where
  version_eq : e'.version = e.version
  pins_eq : e'.pins = e.pins
  reclaimed_eq : e'.stats.versionsReclaimed = e.stats.versionsReclaimed
  nextId_eq : e'.nextId = e.nextId
  face?_eq : ∀ a, e'.face? a
    = if a = id then (e.face? id).map g else e.face? a

/-- Changing a view changes the face of no transaction but its own. -/
theorem faced_mapView (f : View → View)
    (hf : ∀ t : Transaction, ({ t with view := f t.view } : Transaction).face
      = g t.face) : Faced id g e (leave (mapView id f) e) := by
  have hrest : ∃ m, leave (mapView id f) e = { e with transactions := m } := by
    cases ht : e.transaction? id with
    | none => exact ⟨e.transactions, leave_mapView_none ht f⟩
    | some t => exact ⟨_, leave_of_ok (run_mapView ht f)⟩
  obtain ⟨m, hm⟩ := hrest
  refine ⟨by rw [hm]; rfl, by rw [hm], by rw [hm], by rw [hm], fun a => ?_⟩
  unfold face?
  rw [transaction?_mapView]
  split
  next =>
    cases e.transaction? id with
    | none => rfl
    | some t => exact congrArg some (hf t)
  next => rfl

theorem face_finished (state : TransactionState) :
    (finished state t).face = t.face := by
  unfold finished
  cases t.role <;> rfl

/-- Ending a transaction changes no face. -/
theorem faced_finish (state : TransactionState) :
    Faced id (fun f => f) e (leave (finish id state) e) := by
  have hrest : ∃ m busy, leave (finish id state) e
      = { e with transactions := m, writerBusy := busy } := by
    cases ht : e.transaction? id with
    | none => exact ⟨_, _, leave_finish_none ht state⟩
    | some t =>
        cases hrole : t.role with
        | reader => exact ⟨_, _, leave_finish_reader ht hrole state⟩
        | writer => exact ⟨_, _, leave_finish_writer ht hrole state⟩
  obtain ⟨m, busy, hm⟩ := hrest
  refine ⟨by rw [hm]; rfl, by rw [hm], by rw [hm], by rw [hm], fun a => ?_⟩
  unfold face?
  rw [transaction?_finish]
  split
  next =>
    cases e.transaction? id with
    | none => rfl
    | some t => exact congrArg some (face_finished state)
  next => rfl

/-- Faces that change twice change by both. -/
theorem Faced.trans {g' : Face → Face} (h : Faced id g e m)
    (h' : Faced id g' m e') : Faced id (g' ∘ g) e e' where
  version_eq := h'.version_eq.trans h.version_eq
  pins_eq := h'.pins_eq.trans h.pins_eq
  reclaimed_eq := h'.reclaimed_eq.trans h.reclaimed_eq
  nextId_eq := h'.nextId_eq.trans h.nextId_eq
  face?_eq a := by
    rw [h'.face?_eq, h.face?_eq, h.face?_eq, if_pos rfl, Option.map_map]
    split <;> rfl

/-- A transaction that is put in place changes its own face only. -/
theorem faced_withTransaction (ht : e.transaction? id = some t)
    {u : Transaction} (hu : u.face = g t.face) :
    Faced id g e (e.withTransaction id u) := by
  refine ⟨rfl, rfl, rfl, rfl, fun a => ?_⟩
  unfold face?
  rw [transaction?_withTransaction, ht]
  split
  next => exact congrArg some hu
  next => rfl

/-- Where no face has changed, it does not matter whose. -/
theorem Faced.same (h : Faced id (fun f => f) e e') (a : TransactionId) :
    e'.face? a = e.face? a := by
  rw [h.face?_eq, Option.map_id']
  split
  next heq => rw [heq]
  next => rfl

/-- Engines that agree in what a face is made of have the same faces. -/
theorem faced_of_same (hversion : e'.version = e.version)
    (hpins : e'.pins = e.pins)
    (hreclaimed : e'.stats.versionsReclaimed = e.stats.versionsReclaimed)
    (hnext : e'.nextId = e.nextId) (hface : ∀ a, e'.face? a = e.face? a) :
    Faced id (fun f => f) e e' := by
  refine ⟨hversion, hpins, hreclaimed, hnext, fun a => ?_⟩
  rw [hface, Option.map_id']
  split
  next heq => rw [heq]
  next => rfl

/-- No call through a handle changes a face. -/
theorem lasting_faced (e : Engine) (id : TransactionId) :
    Lasting (Faced id (fun f => f) e) := by
  intro s s' h hstep
  have hown (a : TransactionId) (hs : Faced a (fun f => f) s s') :
      Faced id (fun f => f) e s' :=
    h.trans (faced_of_same hs.version_eq hs.pins_eq hs.reclaimed_eq
      hs.nextId_eq hs.same)
  -- Each case has a transaction of its own; as no face changes, it may stand
  -- for any other.
  cases hstep with
  | counted => exact hown id (faced_of_same rfl rfl rfl rfl fun _ => rfl)
  | @kept a t ht => exact hown a (faced_withTransaction ht rfl)
  | @wrote a t build i v ht hwrote =>
      refine hown a (faced_withTransaction ht ?_)
      unfold Transaction.face
      dsimp only
      rw [hwrote.mode_eq, hwrote.applied.version_eq]

-- ================================================== how calls and faces go

namespace Traffic

variable {c c' : Traffic} {v w : Version} {o : Option Face}
  {phase : Option Phase}

/-- The pin that a phase holds beside that of the transaction. -/
def owed : Option Phase → List Version
  | some (.repinned base) => [base]
  | _ => []

/-- The pins that are held for a transaction. -/
def heldFor (c : Traffic) (id : TransactionId) : List Version :=
  ((c.engine.face? id).map Face.pinned).toList ++ owed (c.under id)

/-- The snapshot that a commit has published and is yet to pin. -/
def published? : Option Phase → Option Snapshot
  | some (.published next _) | some (.released next _) | some (.shown next) =>
    some next
  | _ => none

/-- The version that a commit has shown and is yet to pin. -/
def showing? (c : Traffic) (id : TransactionId) : Option Version :=
  match c.under id with
  | some (.shown next) => some next.version
  | _ => none

/-- What a transaction looks like while a call is under way. An open view
shows what is pinned, except while a commit has shown what is yet to be
pinned, and while a reader has pinned what is yet to be shown. -/
def Suits : Option Phase → Option Face → Prop
  | none, none => True
  | some _, none => False
  | some (.shown next), some f => f.mode ≠ .closed ∧ f.shown = next.version
  | some (.moved next), some f => f.pinned = next.version
  | _, some f => f.Steady

/-- Ids are fresh, and each transaction looks as it should. -/
structure Tidy (c : Traffic) : Prop where
  fresh : ∀ id, c.engine.face? id ≠ none → id.raw < c.engine.nextId.raw
  suits : ∀ id, Suits (c.under id) (c.engine.face? id)

/-- What a step does to the pins. -/
inductive Posting where
  | none
  | pinned (v : Version)
  | unpinned (v : Version)
  | repinned (v : Version)
  | published

namespace Posting

/-- What the pins become, and the versions that are reclaimed. -/
def post (e : Engine) : Posting → Pins × List Version
  | none => (e.pins, [])
  | pinned v => (e.pins.pin v, [])
  | unpinned v => ((e.pins.unpin v).1, e.pins.lapsed v)
  | repinned v =>
    (((e.pins.pin e.version).unpin v).1, (e.pins.pin e.version).lapsed v)
  | published =>
    ((e.pins.setCurrent e.version.next).1,
      e.pins.superseded e.version.next)

/-- How many versions are published. -/
def made : Posting → Nat
  | published => 1
  | _ => 0

/-- A move makes one version at most. -/
theorem made_le_one (p : Posting) : p.made ≤ 1 := by
  cases p with
  | published => exact Nat.le_refl 1
  | none | pinned | unpinned | repinned => exact Nat.zero_le 1

/-- Whether it pins what is current, or what a commit has shown. -/
def Allowed (c : Traffic) : Posting → Prop
  | pinned v => v = c.engine.version ∨ ∃ id, c.showing? id = some v
  | _ => True

/-- What becomes of the pins that are held for the transaction. -/
def Passes (current : Version) :
    Posting → List Version → List Version → Prop
  | none, l, l' => l' = l
  | pinned v, l, l' => l' = v :: l
  | unpinned v, l, l' => l = l' ++ [v]
  | repinned v, l, l' => l = [v] ∧ l' = [current]
  | published, l, l' => l' = l

end Posting

/-- A step of one call, and what it does to the pins. -/
structure Course (id : TransactionId) (p : Posting) (c c' : Traffic) :
    Prop where
  under_eq : ∀ a, a ≠ id → c'.under a = c.under a
  face?_eq : ∀ a, a ≠ id → c'.engine.face? a = c.engine.face? a
  nextId_le : c.engine.nextId.raw ≤ c'.engine.nextId.raw
  known : c'.engine.face? id ≠ none → id.raw < c'.engine.nextId.raw
  suits : Suits (c'.under id) (c'.engine.face? id)
  published?_eq : ∀ next, published? (c'.under id) = some next →
    published? (c.under id) = some next ∨ next.version = c'.engine.version
  allowed : p.Allowed c
  passes : p.Passes c.engine.version (c.heldFor id) (c'.heldFor id)
  version_eq : c'.engine.version
    = if p.made = 1 then c.engine.version.next else c.engine.version
  pins_eq : c'.engine.pins = (p.post c.engine).1
  counted_eq : c'.counted = c.counted ++ (p.post c.engine).2
  reclaimed_eq : c'.engine.stats.versionsReclaimed
    = c.engine.stats.versionsReclaimed + (p.post c.engine).2.length

/-- There is nothing under an id that was not handed out. -/
theorem Tidy.none_of_le (h : c.Tidy)
    (hid : c.engine.nextId.raw ≤ id.raw) :
    c.engine.face? id = none ∧ c.under id = none := by
  have hface : c.engine.face? id = none := by
    by_contra hne
    exact absurd (h.fresh id hne) (by omega)
  have hsuits := h.suits id
  rw [hface] at hsuits
  cases hphase : c.under id with
  | none => exact ⟨hface, rfl⟩
  | some phase =>
      rw [hphase] at hsuits
      exact hsuits.elim

/-- Nothing is held for a transaction that has not begun. -/
theorem Tidy.heldFor_of_le (h : c.Tidy)
    (hid : c.engine.nextId.raw ≤ id.raw) : c.heldFor id = [] := by
  obtain ⟨hface, hphase⟩ := h.none_of_le hid
  unfold heldFor
  rw [hface, hphase]
  rfl

/-- Every course keeps things tidy. -/
theorem Course.tidy {p : Posting} (h : Course id p c c') (ht : c.Tidy) :
    c'.Tidy where
  fresh a hface := by
    by_cases ha : a = id
    · exact ha ▸ h.known (ha ▸ hface)
    · rw [h.face?_eq a ha] at hface
      exact Nat.lt_of_lt_of_le (ht.fresh a hface) h.nextId_le
  suits a := by
    by_cases ha : a = id
    · exact ha ▸ h.suits
    · rw [h.face?_eq a ha, h.under_eq a ha]
      exact ht.suits a

-- =================================================== what every move does

/-- While a call is under way on it, a transaction is there. -/
theorem Tidy.present (h : c.Tidy) {ph : Phase}
    (hunder : c.under id = some ph) :
    ∃ t, c.engine.transaction? id = some t
      ∧ Suits (some ph) (some t.face) := by
  have hsuits := h.suits id
  rw [hunder] at hsuits
  cases ht : c.engine.transaction? id with
  | none =>
      rw [show c.engine.face? id = none from congrArg _ ht] at hsuits
      exact hsuits.elim
  | some t =>
      rw [face?_of_some ht] at hsuits
      exact ⟨t, rfl, hsuits⟩

/-- A transaction holds its pin and what its call owes. -/
theorem heldFor_of_some (ht : c.engine.transaction? id = some t) :
    c.heldFor id = t.pinned :: owed (c.under id) := by
  unfold heldFor
  rw [face?_of_some ht]
  rfl

/-- A step that leaves the pins alone. -/
theorem Tidy.faced (h : c.Tidy)
    (hfaced : Faced id g c.engine c'.engine)
    (hpinned : ∀ f, (g f).pinned = f.pinned)
    (hunder : c'.under = Function.update c.under id phase)
    (hcounted : c'.counted = c.counted)
    (howed : owed phase = owed (c.under id))
    (hpublished : ∀ next, published? phase = some next →
      published? (c.under id) = some next)
    (hsuits : Suits phase ((c.engine.face? id).map g)) :
    Course id .none c c' := by
  have hown : c'.engine.face? id = (c.engine.face? id).map g := by
    rw [hfaced.face?_eq, if_pos rfl]
  have hphase : c'.under id = phase := by
    rw [hunder, Function.update_self]
  constructor
  case under_eq =>
    intro a ha
    rw [hunder, Function.update_of_ne ha]
  case face?_eq =>
    intro a ha
    rw [hfaced.face?_eq, if_neg ha]
  case nextId_le => exact Nat.le_of_eq (congrArg _ hfaced.nextId_eq.symm)
  case known =>
    intro hne
    rw [hown] at hne
    rw [hfaced.nextId_eq]
    exact h.fresh id fun hnone => hne (by rw [hnone]; rfl)
  case suits => rw [hown, hphase]; exact hsuits
  case published?_eq =>
    intro next hpub
    rw [hphase] at hpub
    exact .inl (hpublished next hpub)
  case allowed => trivial
  case passes =>
    unfold heldFor
    rw [hown, hphase, howed, Option.map_map]
    cases c.engine.face? id with
    | none => rfl
    | some f => exact congrArg (· :: _) (hpinned f)
  case version_eq => exact hfaced.version_eq
  case pins_eq => exact hfaced.pins_eq
  case counted_eq => exact hcounted.trans (List.append_nil _).symm
  case reclaimed_eq => exact hfaced.reclaimed_eq

/-- A step that changes no face, and nothing about any call. -/
theorem Tidy.still (h : c.Tidy)
    (hfaced : Faced id (fun f => f) c.engine c'.engine)
    (hunder : c'.under = c.under) (hcounted : c'.counted = c.counted) :
    Course id .none c c' := by
  have hsame : c'.under = Function.update c.under id (c.under id) := by
    rw [hunder, Function.update_eq_self]
  refine h.faced hfaced (fun _ => rfl) hsame hcounted rfl (fun _ h => h) ?_
  rw [Option.map_id']
  exact h.suits id

/-- A step that changes the pins, of a transaction that is there. -/
theorem Tidy.posted (h : c.Tidy) {p : Posting}
    (ht : c.engine.transaction? id = some t)
    (hunder : c'.under = Function.update c.under id phase)
    (hothers : ∀ a, a ≠ id →
      c'.engine.transaction? a = c.engine.transaction? a)
    (hnext : c'.engine.nextId = c.engine.nextId)
    (hself : c'.engine.face? id = o) (hsuits : Suits phase o)
    (hpublished : ∀ next, published? phase = some next →
      next.version = c'.engine.version)
    (hallowed : p.Allowed c)
    (hpasses : p.Passes c.engine.version (t.pinned :: owed (c.under id))
      ((o.map Face.pinned).toList ++ owed phase))
    (hversion : c'.engine.version
      = if p.made = 1 then c.engine.version.next else c.engine.version)
    (hpins : c'.engine.pins = (p.post c.engine).1)
    (hcounted : c'.counted = c.counted ++ (p.post c.engine).2)
    (hreclaimed : c'.engine.stats.versionsReclaimed
      = c.engine.stats.versionsReclaimed + (p.post c.engine).2.length) :
    Course id p c c' := by
  have hphase : c'.under id = phase := by
    rw [hunder, Function.update_self]
  constructor
  case under_eq =>
    intro a ha
    rw [hunder, Function.update_of_ne ha]
  case face?_eq => exact fun a ha => congrArg _ (hothers a ha)
  case nextId_le => exact Nat.le_of_eq (congrArg _ hnext.symm)
  case known =>
    intro _
    rw [hnext]
    exact h.fresh id (by rw [face?_of_some ht]; exact nofun)
  case suits => rw [hphase, hself]; exact hsuits
  case published?_eq =>
    intro next hpub
    rw [hphase] at hpub
    exact .inr (hpublished next hpub)
  case allowed => exact hallowed
  case passes =>
    rw [heldFor_of_some ht]
    unfold heldFor
    rw [hphase, hself]
    exact hpasses
  case version_eq => exact hversion
  case pins_eq => exact hpins
  case counted_eq => exact hcounted
  case reclaimed_eq => exact hreclaimed

/-- Whoever begins takes a pin on what is current. -/
theorem Tidy.opened (h : c.Tidy) (mode : ViewMode) (role : Role)
    {stats : Stats}
    (hengine : c'.engine = { c.engine.opened mode role with stats })
    (hstats : stats.versionsReclaimed
      = c.engine.stats.versionsReclaimed)
    (hunder : c'.under = c.under) (hcounted : c'.counted = c.counted) :
    Course c.engine.nextId (.pinned c.engine.version) c c' := by
  have hnone : c.heldFor c.engine.nextId = [] :=
    h.heldFor_of_le (Nat.le_refl _)
  have hself : c'.engine.face? c.engine.nextId
      = some ⟨c.engine.version, mode, c.engine.version⟩ := by
    rw [hengine]
    exact face?_of_some (transaction?_self _ _ _)
  have hphase : c.under c.engine.nextId = none :=
    (h.none_of_le (Nat.le_refl _)).2
  constructor
  case under_eq => exact fun a _ => congrFun hunder a
  case face?_eq =>
    intro a ha
    rw [hengine]
    exact congrArg _ ((transaction?_withTransaction a).trans (if_neg ha))
  case nextId_le => rw [hengine]; exact Nat.le_succ _
  case known =>
    intro _
    rw [hengine]
    exact Nat.lt_succ_self _
  case suits =>
    rw [hself, hunder, hphase]
    exact fun _ => rfl
  case published?_eq =>
    rw [hunder]
    exact fun _ hpub => .inl hpub
  case allowed => exact .inl rfl
  case passes =>
    rw [hnone]
    unfold heldFor
    rw [hself, hunder, hphase]
    rfl
  case version_eq => rw [hengine]; rfl
  case pins_eq => rw [hengine]; rfl
  case counted_eq => exact hcounted.trans (List.append_nil _).symm
  case reclaimed_eq => rw [hengine]; exact hstats

/-- Nothing at all has changed. -/
theorem Tidy.refl (h : c.Tidy) (id : TransactionId) : Course id .none c c :=
  h.still (faced_of_same rfl rfl rfl rfl fun _ => rfl) rfl rfl

theorem steady_of_closed {f : Face} (hmode : f.mode = .closed) : f.Steady :=
  fun hne => (hne hmode).elim

/-- A step that closes the view. -/
theorem Tidy.closes (h : c.Tidy) (howed : owed (c.under id) = [])
    (ht : c.engine.transaction? id = some t)
    (hphase : phase = some .leaving ∨ ∃ leaves, phase = some (.closed leaves)) :
    Course id .none c
      (c.mark id phase (c.engine.leave (mapView id View.close))) := by
  have hfaced : Faced id (fun f => { f with mode := .closed }) c.engine
      (c.engine.leave (mapView id View.close)) :=
    faced_mapView View.close fun _ => rfl
  refine h.faced hfaced (fun _ => rfl) rfl rfl ?_ ?_ ?_
  · rw [howed]
    rcases hphase with rfl | ⟨leaves, rfl⟩ <;> rfl
  · rcases hphase with rfl | ⟨leaves, rfl⟩ <;> exact nofun
  · rw [face?_of_some ht]
    rcases hphase with rfl | ⟨leaves, rfl⟩
    · exact steady_of_closed rfl
    · exact steady_of_closed rfl

/-- Dropping starts without a change to the pins. -/
theorem Tidy.course_drop (h : c.Tidy) (hunder : c.under id = none) :
    Course id .none c (c.drop id) := by
  have howed : owed (c.under id) = [] := by
    rw [hunder]
    rfl
  unfold Traffic.drop
  cases ht : c.engine.transaction? id with
  | none => exact h.refl id
  | some t =>
      dsimp only
      split
      next => exact h.closes howed ht (.inr ⟨true, rfl⟩)
      next => exact h.closes howed ht (.inl rfl)

/-- Rolling back starts without a change to the pins. -/
theorem Tidy.course_rollback (h : c.Tidy) (hunder : c.under id = none) :
    Course id .none c (c.rollback id) := by
  have howed : owed (c.under id) = [] := by
    rw [hunder]
    rfl
  unfold Traffic.rollback
  cases hactive : c.engine.requireActive id with
  | error err => exact h.refl id
  | ok t =>
      exact h.closes howed (requireActive_eq_ok.1 hactive).1
        (.inr ⟨false, rfl⟩)

/-- Advancing starts as a step of its call, and publishes nothing. -/
theorem Tidy.course_advance (h : c.Tidy) (hunder : c.under id = none) :
    ∃ p, Course id p c (c.advance id) ∧ p.made = 0 := by
  unfold Traffic.advance
  cases ht : c.engine.transaction? id with
  | none => exact ⟨.none, h.refl id, rfl⟩
  | some t =>
      dsimp only
      split
      next => exact ⟨.none, h.refl id, rfl⟩
      next =>
        let u : Transaction := { t with pinned := c.engine.version }
        have hself := face?_of_some (transaction?_self c.engine id u)
        refine ⟨.repinned t.pinned, h.posted ht rfl (fun a ha => ?_) rfl hself
          rfl nofun trivial ?_ rfl rfl rfl ?_, rfl⟩
        · exact (transaction?_withTransaction a).trans (if_neg ha)
        · rw [hunder]
          exact ⟨rfl, rfl⟩
        · exact congrArg (_ + ·) List.length_replicate.symm

/-- A commit starts as a step of its call, whether it is to go on or not. -/
theorem Tidy.course_commit (h : c.Tidy) (hunder : c.under id = none)
    (goesOn : Bool) : ∃ p, Course id p c (c.commit id goesOn) := by
  unfold Traffic.commit
  cases hactive : c.engine.requireActive id with
  | error err =>
      dsimp only
      split
      next => exact ⟨.none, h.course_drop hunder⟩
      next => exact ⟨.none, h.refl id⟩
  | ok t =>
      obtain ⟨ht, hw⟩ := requireActive_eq_ok.1 hactive
      let taken : Transaction :=
        { t with view := { t.view with changes := #[] } }
      have hsteady : Suits none (some t.face) := by
        have hsuits := h.suits id
        rwa [hunder, face?_of_some ht] at hsuits
      rcases publishTaken_cases ht with ⟨grown, log, hrun⟩ | ⟨err, log, hrun⟩
      · refine ⟨.published, ?_⟩
        rw [hrun]
        have hself := face?_of_some (transaction?_self c.engine id taken)
        refine h.posted ht rfl (fun a ha => ?_) rfl hself hsteady ?_ trivial ?_
          rfl rfl rfl ?_
        · exact (transaction?_withTransaction a).trans (if_neg ha)
        · rintro next ⟨⟩
          rfl
        · rw [hunder]
          rfl
        · exact congrArg (_ + ·) List.length_replicate.symm
      · refine ⟨.none, ?_⟩
        rw [hrun]
        have htaken : Faced id (fun f => f) c.engine
            (c.engine.withTransaction id taken) :=
          faced_withTransaction ht rfl
        have hfaced : Faced id (fun f => f) c.engine
            { takenFrom c.engine id t with log } :=
          ⟨htaken.version_eq, htaken.pins_eq, htaken.reclaimed_eq,
            htaken.nextId_eq, htaken.face?_eq⟩
        refine h.faced hfaced (fun _ => rfl) rfl rfl ?_ nofun ?_
        · rw [hunder]
          rfl
        · rw [face?_of_some ht]
          exact hsteady

/-- The step after which a call has come to another phase, and no pin is
other than it was. -/
theorem Tidy.kept (h : c.Tidy) {ph : Phase}
    (hunder : c.under id = some ph) (ht : c.engine.transaction? id = some t)
    (hfaced : Faced id g c.engine e')
    (hpinned : ∀ f, (g f).pinned = f.pinned)
    (howed : owed phase = owed (some ph))
    (hpublished : ∀ next, published? phase = some next →
      published? (some ph) = some next)
    (hsuits : Suits phase (some (g t.face))) :
    Course id .none c (c.mark id phase e') := by
  refine h.faced hfaced hpinned rfl rfl (hunder ▸ howed)
    (hunder ▸ hpublished) ?_
  rw [face?_of_some ht]
  exact hsuits

/-- A commit gives the view what it has published. -/
theorem Tidy.course_released (h : c.Tidy) {next : Snapshot} {goesOn : Bool}
    (hunder : c.under id = some (.released next goesOn)) :
    Course id .none c (c.proceed id) := by
  obtain ⟨t, ht, -⟩ := h.present hunder
  unfold Traffic.proceed
  rw [hunder]
  cases goesOn with
  | false =>
      refine h.kept (g := fun f => ⟨f.pinned, .closed, next.version⟩) hunder
        ht (faced_mapView _ fun _ => rfl) (fun _ => rfl) rfl nofun ?_
      exact steady_of_closed rfl
  | true =>
      refine h.kept (g := fun f => ⟨f.pinned, .reading, next.version⟩) hunder
        ht (faced_mapView _ fun _ => rfl) (fun _ => rfl) rfl
        (fun _ hpub => hpub) ?_
      exact ⟨nofun, rfl⟩

/-- A commit that goes on to read pins what it has shown. -/
theorem Tidy.course_shown (h : c.Tidy) {next : Snapshot}
    (hunder : c.under id = some (.shown next)) :
    Course id (.pinned next.version) c (c.proceed id) := by
  obtain ⟨t, ht, hsuits⟩ := h.present hunder
  let u : Transaction := { t with pinned := next.version, role := .reader }
  have hself := face?_of_some (transaction?_self c.engine id u)
  have hshowing : c.showing? id = some next.version := by
    unfold showing?
    rw [hunder]
  unfold Traffic.proceed
  rw [hunder]
  dsimp only
  rw [ht]
  refine h.posted ht rfl (fun a ha => ?_) rfl hself (fun _ => hsuits.2) nofun
    (.inr ⟨id, hshowing⟩) ?_ rfl rfl (List.append_nil _).symm rfl
  · exact (transaction?_withTransaction a).trans (if_neg ha)
  · rw [hunder]
    rfl

/-- The pin is taken off the version that the commit began on. -/
theorem Tidy.course_repinned (h : c.Tidy) {base : Version}
    (hunder : c.under id = some (.repinned base)) :
    Course id (.unpinned base) c (c.proceed id) := by
  obtain ⟨t, ht, hsuits⟩ := h.present hunder
  unfold Traffic.proceed
  rw [hunder]
  refine h.posted ht rfl (fun _ _ => rfl) rfl (face?_of_some ht) hsuits nofun
    trivial ?_ rfl rfl rfl ?_
  · rw [hunder]
    rfl
  · exact congrArg (_ + ·) List.length_replicate.symm

/-- A reader that moves on is shown what it has pinned. -/
theorem Tidy.course_moved (h : c.Tidy) {next : Snapshot}
    (hunder : c.under id = some (.moved next)) :
    Course id .none c (c.proceed id) := by
  obtain ⟨t, ht, hsuits⟩ := h.present hunder
  have hview : Faced id (fun f => ⟨f.pinned, .reading, next.version⟩)
      c.engine (c.engine.leave
        (mapView id (View.replace next .reading true))) :=
    faced_mapView _ fun _ => rfl
  unfold Traffic.proceed
  rw [hunder]
  exact h.kept hunder ht ⟨hview.version_eq, hview.pins_eq,
    hview.reclaimed_eq, hview.nextId_eq, hview.face?_eq⟩ (fun _ => rfl) rfl
      nofun fun _ => hsuits.symm

/-- A writer whose view is closed is rolled back. -/
theorem Tidy.course_closed (h : c.Tidy) {leaves : Bool}
    (hunder : c.under id = some (.closed leaves)) :
    Course id .none c (c.proceed id) := by
  obtain ⟨t, ht, hsuits⟩ := h.present hunder
  have hfinish : Faced id (fun f => f) c.engine
      (c.engine.leave (finish id .rolledBack)) := faced_finish .rolledBack
  unfold Traffic.proceed
  rw [hunder]
  refine h.kept hunder ht ⟨hfinish.version_eq, hfinish.pins_eq,
    hfinish.reclaimed_eq, hfinish.nextId_eq, hfinish.face?_eq⟩
      (fun _ => rfl) ?_ ?_ ?_
  · cases leaves <;> rfl
  · cases leaves <;> exact nofun
  · cases leaves <;> exact hsuits

/-- Whoever leaves takes the pin off. -/
theorem Tidy.course_leaving (h : c.Tidy)
    (hunder : c.under id = some .leaving) :
    ∃ v, Course id (.unpinned v) c (c.proceed id) := by
  obtain ⟨t, ht, -⟩ := h.present hunder
  have hnone : (c.engine.dropped id t).face? id = none :=
    congrArg _ ((transaction?_dropped id).trans (if_pos rfl))
  refine ⟨t.pinned, ?_⟩
  unfold Traffic.proceed
  rw [hunder]
  dsimp only
  rw [ht]
  refine h.posted ht rfl (fun a ha => ?_) rfl hnone trivial nofun trivial ?_
    rfl rfl rfl ?_
  · exact (transaction?_dropped a).trans (if_neg ha)
  · rw [hunder]
    rfl
  · exact congrArg (_ + ·) List.length_replicate.symm

/-- The next step of a call is a step of it, and publishes nothing. -/
theorem Tidy.course_proceed (h : c.Tidy) (id : TransactionId) :
    ∃ p, Course id p c (c.proceed id) ∧ p.made = 0 := by
  cases hunder : c.under id with
  | none =>
      refine ⟨.none, ?_, rfl⟩
      unfold Traffic.proceed
      rw [hunder]
      exact h.refl id
  | some ph =>
      cases ph with
      | published next goesOn =>
          obtain ⟨t, ht, hsuits⟩ := h.present hunder
          refine ⟨.none, ?_, rfl⟩
          unfold Traffic.proceed
          rw [hunder]
          exact h.kept hunder ht (faced_finish .committed) (fun _ => rfl) rfl
            (fun _ hpub => hpub) hsuits
      | released => exact ⟨_, h.course_released hunder, rfl⟩
      | shown => exact ⟨_, h.course_shown hunder, rfl⟩
      | repinned => exact ⟨_, h.course_repinned hunder, rfl⟩
      | moved => exact ⟨_, h.course_moved hunder, rfl⟩
      | refused leaves =>
          obtain ⟨t, ht, -⟩ := h.present hunder
          refine ⟨.none, ?_, rfl⟩
          unfold Traffic.proceed
          rw [hunder]
          exact h.closes (hunder ▸ rfl) ht (.inr ⟨leaves, rfl⟩)
      | closed => exact ⟨_, h.course_closed hunder, rfl⟩
      | leaving =>
          obtain ⟨v, hcourse⟩ := h.course_leaving hunder
          exact ⟨_, hcourse, rfl⟩

/-- The first step of a call on a transaction that is free for it. -/
theorem Tidy.course_begin (h : c.Tidy) (id : TransactionId)
    (first : Traffic → Traffic) {n : Nat}
    (hfirst : c.under id = none →
      ∃ p, Course id p c (first c) ∧ p.made ≤ n) :
    ∃ a p, Course a p c (c.begin id first) ∧ p.made ≤ n := by
  refine ⟨id, ?_⟩
  unfold Traffic.begin
  cases hunder : c.under id with
  | some phase => exact ⟨.none, h.refl id, Nat.zero_le n⟩
  | none => exact hfirst hunder

/-- Every move is a step of one call, and only the first step of a commit
publishes. -/
theorem Tidy.course (h : c.Tidy) (m : Move) :
    ∃ id p, Course id p c (c.move m) ∧ p.made ≤ m.commits.toNat := by
  have hstill (c' : Traffic)
      (hfaced : Faced ⟨0⟩ (fun f => f) c.engine c'.engine)
      (hunder : c'.under = c.under) (hcounted : c'.counted = c.counted) :
      ∃ id p, Course id p c c' ∧ p.made ≤ m.commits.toNat :=
    ⟨_, .none, h.still hfaced hunder hcounted, Nat.zero_le _⟩
  have hsame {e' : Engine} (hversion : e'.version = c.engine.version)
      (hpins : e'.pins = c.engine.pins)
      (hstats : e'.stats = c.engine.stats)
      (hnext : e'.nextId = c.engine.nextId)
      (hface : ∀ a, e'.face? a = c.engine.face? a) :
      Faced ⟨0⟩ (fun f => f) c.engine e' :=
    faced_of_same hversion hpins (congrArg _ hstats) hnext hface
  cases m with
  | beginRead =>
      exact ⟨_, _, h.opened .reading .reader rfl rfl rfl rfl, Nat.le_refl 0⟩
  | acquire =>
      show ∃ id p, Course id p c c.acquire ∧ _
      unfold Traffic.acquire
      rw [run_acquireWriter]
      split
      next heq =>
        split at heq
        next => cases heq
        next =>
          cases heq
          exact hstill _ (hsame rfl rfl rfl rfl fun _ => rfl) rfl rfl
      next => exact hstill c (hsame rfl rfl rfl rfl fun _ => rfl) rfl rfl
  | enter =>
      show ∃ id p, Course id p c c.enter ∧ _
      unfold Traffic.enter
      split
      next =>
        exact ⟨_, _, h.opened .writing (.writer .active true) rfl rfl rfl rfl,
          Nat.le_refl 0⟩
      next => exact hstill c (hsame rfl rfl rfl rfl fun _ => rfl) rfl rfl
  | commit id goesOn =>
      refine h.course_begin id (commit id goesOn) fun hunder => ?_
      obtain ⟨p, hcourse⟩ := h.course_commit hunder goesOn
      exact ⟨p, hcourse, p.made_le_one⟩
  | rollback id =>
      exact h.course_begin id (rollback id) fun hunder =>
        ⟨.none, h.course_rollback hunder, Nat.le_refl 0⟩
  | advance id =>
      refine h.course_begin id (advance id) fun hunder => ?_
      obtain ⟨p, hcourse, hmade⟩ := h.course_advance hunder
      exact ⟨p, hcourse, Nat.le_of_eq hmade⟩
  | drop id =>
      exact h.course_begin id (drop id) fun hunder =>
        ⟨.none, h.course_drop hunder, Nat.le_refl 0⟩
  | proceed id =>
      obtain ⟨p, hcourse, hmade⟩ := h.course_proceed id
      exact ⟨id, p, hcourse, Nat.le_of_eq hmade⟩
  | handle call =>
      show ∃ id p, Course id p c (if call.turnsOver then c else _) ∧ _
      split
      next => exact hstill c (hsame rfl rfl rfl rfl fun _ => rfl) rfl rfl
      next hkept =>
        have hturns : call.turnsOver = false := by simpa using hkept
        have hlasting := Call.step_lasting (lasting_faced c.engine ⟨0⟩) hturns
          (hsame rfl rfl rfl rfl fun _ => rfl)
        exact hstill _ hlasting rfl rfl

end Traffic

end Engine

end Colonnade
