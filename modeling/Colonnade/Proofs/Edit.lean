/-
What edits do, step by step. `Gives e s a s'` says that the edit `e`
succeeds on `s` with `a` and leaves `s'`; it is read off the shape of the
edit, one lemma for each way in which edits are put together. The theorems
about tables, snapshots and engines open a definition once, by these lemmas,
and speak of what it gives from then on.

Where failing matters as much as succeeding, two more notions are used. An
edit is `Atomic` if failing leaves the state as it was. `Ends P x Q E` says
that from every state with `P` the edit ends in one with `Q`, or fails in
one with `E`; it is closed under sequencing, and an edit that `Preserves` a
property is the case in which all three are that property. Where nothing is
left open, `Yields P x a Q` says that the edit succeeds, and with `a`.

Chain: below every other module of proofs.
-/
import Colonnade.Edit
import Mathlib.Tactic.Common

namespace Colonnade

/-- There is only one thing that a step without a result can give. -/
@[simp]
theorem exists_unit {p : Unit → Prop} : (∃ u, p u) ↔ p () :=
  ⟨fun ⟨_, h⟩ => h, fun h => ⟨(), h⟩⟩

-- ===================================================== checks that pass

namespace Check

variable {α β : Type}

@[simp]
theorem pure_eq_ok {a b : α} :
    (pure a : Except Error α) = .ok b ↔ a = b :=
  ⟨Except.ok.inj, congrArg _⟩

@[simp]
theorem throw_bind (e : Error) (f : α → Except Error β) :
    (throw e >>= f) = throw e := rfl

/-- Two steps come out if the first does and the second does from there. -/
@[simp]
theorem bind_eq_ok {x : Except Error α} {f : α → Except Error β} {b : β} :
    (x >>= f) = .ok b ↔ ∃ a, x = .ok a ∧ f a = .ok b := by
  cases x with
  | ok a => exact ⟨fun h => ⟨a, rfl, h⟩, fun ⟨_, h, hf⟩ => by cases h; exact hf⟩
  | error e => exact ⟨nofun, fun ⟨_, h, _⟩ => nomatch h⟩

/-- A sequence of checks fails where the first failing one does. -/
theorem bind_eq_error {x : Except Error α} {f : α → Except Error β}
    {err : Error} :
    (x >>= f) = .error err
      ↔ x = .error err ∨ ∃ a, x = .ok a ∧ f a = .error err := by
  cases x with
  | ok a =>
      constructor
      · exact fun h => .inr ⟨a, rfl, h⟩
      · rintro (h | ⟨_, h, hf⟩)
        · cases h
        · cases h
          exact hf
  | error e =>
      constructor
      · exact fun h => .inl (congrArg Except.error (Except.error.inj h))
      · rintro (h | ⟨_, h, _⟩)
        · exact congrArg Except.error (Except.error.inj h)
        · cases h

/-- A check behind a guard passes where the guard lets it. -/
@[simp]
theorem guard_eq_ok {c : Prop} [Decidable c] {e : Error}
    {x : Except Error α} {a : α} :
    (if c then throw e else x) = .ok a ↔ ¬ c ∧ x = .ok a := by
  split <;> simp_all

/-- The same with the branches exchanged. -/
@[simp]
theorem unless_eq_ok {c : Prop} [Decidable c] {e : Error}
    {x : Except Error α} {a : α} :
    (if c then x else throw e) = .ok a ↔ c ∧ x = .ok a := by
  split <;> simp_all

end Check

namespace Edit

variable {σ τ α β : Type}

-- ================================================== edits that succeed

/-- The edit succeeds on a state with a result and leaves another state. -/
def Gives (e : Edit σ α) (s : σ) (a : α) (s' : σ) : Prop :=
  e.run s = .ok a s'

/-- An answer given at once leaves the state alone. -/
@[simp]
theorem gives_pure {a b : α} {s s' : σ} :
    Gives (pure a : Edit σ α) s b s' ↔ a = b ∧ s = s' := by
  simp [Gives]

/-- An error gives nothing. -/
@[simp]
theorem gives_throw {err : Error} {a : α} {s s' : σ} :
    Gives (throw err : Edit σ α) s a s' ↔ False :=
  ⟨nofun, False.elim⟩

@[simp]
theorem gives_get {a s s' : σ} :
    Gives (get : Edit σ σ) s a s' ↔ s = a ∧ s = s' := by
  simp [Gives]

@[simp]
theorem gives_set {t s s' : σ} {u : Unit} :
    Gives (set t : Edit σ Unit) s u s' ↔ t = s' := by
  simp [Gives]

@[simp]
theorem gives_modify {f : σ → σ} {s s' : σ} {u : Unit} :
    Gives (modify f : Edit σ Unit) s u s' ↔ f s = s' := by
  simp [Gives]

@[simp]
theorem throw_bind (err : Error) (f : α → Edit σ β) :
    ((throw err : Edit σ α) >>= f) = throw err := rfl

/-- A sequence gives what the second step gives where the first one left off.
-/
@[simp]
theorem gives_bind {x : Edit σ α} {f : α → Edit σ β} {s s'' : σ} {b : β} :
    Gives (x >>= f) s b s''
      ↔ ∃ a s', Gives x s a s' ∧ Gives (f a) s' b s'' := by
  simp only [Gives, EStateM.run_bind]
  cases hx : x.run s with
  | ok a s' =>
      constructor
      · exact fun h => ⟨a, s', rfl, h⟩
      · intro h
        rcases h with ⟨_, _, ha, h⟩
        cases ha
        exact h
  | error e s' => exact ⟨nofun, fun ⟨_, _, h, _⟩ => nomatch h⟩

/-- A check gives its answer and leaves the state alone. -/
@[simp]
theorem gives_lift {x : Except Error α} {s s' : σ} {a : α} :
    Gives (liftM x : Edit σ α) s a s' ↔ x = .ok a ∧ s = s' := by
  cases x with
  | ok b => exact gives_pure.trans (by simp)
  | error e => exact gives_throw.trans (by simp)

@[simp]
theorem gives_ofExcept {x : Except Error α} {s s' : σ} {a : α} :
    Gives (ofExcept σ x) s a s' ↔ x = .ok a ∧ s = s' :=
  gives_lift

/-- An edit behind a guard succeeds where the guard lets it. -/
@[simp]
theorem gives_guard {c : Prop} [Decidable c] {err : Error} {x : Edit σ α}
    {s s' : σ} {a : α} :
    Gives (if c then throw err else x) s a s' ↔ ¬ c ∧ Gives x s a s' := by
  split <;> simp_all

/-- The same with the branches exchanged. -/
@[simp]
theorem gives_unless {c : Prop} [Decidable c] {err : Error} {x : Edit σ α}
    {s s' : σ} {a : α} :
    Gives (if c then x else throw err) s a s' ↔ c ∧ Gives x s a s' := by
  split <;> simp_all

/-- What is done to a part is put back. -/
@[simp]
theorem gives_focus {part : σ → τ} {put : τ → σ → σ} {e : Edit τ α}
    {s s' : σ} {a : α} :
    Gives (focus part put e) s a s'
      ↔ ∃ t, Gives e (part s) a t ∧ put t s = s' := by
  unfold Gives focus
  dsimp only [EStateM.run]
  cases he : e (part s) with
  | ok b t =>
      constructor
      · intro h
        cases h
        exact ⟨t, rfl, rfl⟩
      · intro h
        rcases h with ⟨_, ht, rfl⟩
        cases ht
        rfl
  | error err t => exact ⟨nofun, fun ⟨_, h, _⟩ => nomatch h⟩

/-- Handing the outcome on as a value succeeds where the edit does. -/
theorem gives_attempt_ok {e : Edit σ α} {s s' : σ} {a : α} :
    Gives (attempt e) s (.ok a) s' ↔ Gives e s a s' := by
  unfold Gives attempt
  dsimp only [EStateM.run]
  cases e s with
  | ok b t => simp
  | error err t => simp

/-- What is tried always gives something, and keeps what was done. -/
theorem run_attempt (e : Edit σ α) (s : σ) :
    (attempt e).run s
      = match e.run s with
        | .ok a s' => .ok (.ok a) s'
        | .error err s' => .ok (.error err) s' := rfl

/-- A list of edits, one after the other. -/
theorem gives_forM_cons {f : α → Edit σ Unit} {a : α} {l : List α}
    {s s'' : σ} :
    Gives ((a :: l).forM f) s () s''
      ↔ ∃ s', Gives (f a) s () s' ∧ Gives (l.forM f) s' () s'' := by
  show Gives (f a >>= fun _ => l.forM f) s () s'' ↔ _
  rw [gives_bind]
  exact ⟨fun ⟨_, s', h⟩ => ⟨s', h⟩, fun ⟨s', h⟩ => ⟨(), s', h⟩⟩

/-- A list of edits gives one outcome at most. -/
theorem Gives.unique {e : Edit σ α} {s s₁ s₂ : σ} {a b : α}
    (h₁ : Gives e s a s₁) (h₂ : Gives e s b s₂) : a = b ∧ s₁ = s₂ := by
  unfold Gives at h₁ h₂
  rw [h₁] at h₂
  cases h₂
  exact ⟨rfl, rfl⟩

/-- The state that an edit leaves if it succeeds. -/
def after? (e : Edit σ α) (s : σ) : Option σ :=
  match e.run s with
  | .ok _ s' => some s'
  | .error _ _ => none

/-- There is a state afterwards exactly if something is given. -/
theorem after?_eq_some {e : Edit σ α} {s s' : σ} :
    e.after? s = some s' ↔ ∃ a, Gives e s a s' := by
  unfold after? Gives
  cases e.run s <;> simp

-- ===================================================== edits that fail

/-- Failing leaves the state as it was. -/
def Atomic (e : Edit σ α) : Prop :=
  ∀ s err s', e.run s = .error err s' → s' = s

theorem Atomic.pure (a : α) : Atomic (Pure.pure a : Edit σ α) := nofun

theorem Atomic.set (t : σ) : Atomic (MonadStateOf.set t : Edit σ PUnit) :=
  nofun

/-- An error changes nothing. -/
theorem Atomic.throw (err : Error) :
    Atomic (MonadExcept.throw err : Edit σ α) := by
  intro s err' s' h
  cases h
  rfl

/-- An edit that reads the state first is atomic if what it does with what
it read is, on that very state. -/
theorem Atomic.get_bind {f : σ → Edit σ α}
    (h : ∀ s err s', (f s).run s = .error err s' → s' = s) :
    Atomic (get >>= f) :=
  fun s err s' hrun => h s err s' hrun

theorem Atomic.of_get_bind {f : σ → Edit σ α} (h : ∀ s, Atomic (f s)) :
    Atomic (get >>= f) :=
  Atomic.get_bind fun s => h s s

theorem Atomic.lift_bind {x : Except Error α} {f : α → Edit σ β}
    (h : ∀ a, Atomic (f a)) : Atomic (liftM x >>= f) := by
  cases x with
  | ok a => exact h a
  | error err => exact Atomic.throw err

theorem Atomic.guard {c : Prop} [Decidable c] {err : Error} {x : Edit σ α}
    (hx : Atomic x) : Atomic (if c then MonadExcept.throw err else x) := by
  split
  · exact Atomic.throw err
  · exact hx

/-- An edit of a part fails as the part does, and puts the part back. -/
theorem focus_error {part : σ → τ} {put : τ → σ → σ} {e : Edit τ α}
    {s s' : σ} {err : Error} (h : (focus part put e).run s = .error err s') :
    ∃ t, e.run (part s) = .error err t ∧ put t s = s' := by
  unfold focus at h
  dsimp only [EStateM.run] at h ⊢
  cases he : e (part s) with
  | ok a t =>
      rw [he] at h
      cases h
  | error err' t =>
      rw [he] at h
      cases h
      exact ⟨t, rfl, rfl⟩

/-- An edit of a part is atomic if the part's edit is and putting back what
was there changes nothing. -/
theorem Atomic.focus {part : σ → τ} {put : τ → σ → σ} {e : Edit τ α}
    (he : Atomic e) (hput : ∀ s, put (part s) s = s) :
    Atomic (Edit.focus part put e) := by
  intro s err s' h
  obtain ⟨t, hrun, rfl⟩ := focus_error h
  rw [he _ _ _ hrun, hput]

/-- Something atomic, and then a step that cannot fail, is atomic. -/
theorem Atomic.bind_total {x : Edit σ α} {f : α → Edit σ β} (hx : Atomic x)
    (hf : ∀ a s, ∃ b s', Gives (f a) s b s') : Atomic (x >>= f) := by
  intro s err s' h
  rw [EStateM.run_bind] at h
  cases hrun : x.run s with
  | ok a t =>
      obtain ⟨b, t', hgives⟩ := hf a t
      rw [hrun] at h
      change (f a).run t = _ at h
      rw [show (f a).run t = _ from hgives] at h
      cases h
  | error err' t =>
      rw [hrun] at h
      cases h
      exact hx s err s' hrun

/-- Every error of the edit has a property. -/
def Fails (P : Error → Prop) (e : Edit σ α) : Prop :=
  ∀ s err s', e.run s = .error err s' → P err

section Fails

variable {P : Error → Prop}

theorem Fails.pure (a : α) : Fails P (Pure.pure a : Edit σ α) := nofun

theorem Fails.modify (f : σ → σ) : Fails P (modify f : Edit σ Unit) := nofun

theorem Fails.set (t : σ) : Fails P (MonadStateOf.set t : Edit σ PUnit) :=
  nofun

theorem Fails.throw {err : Error} (h : P err) :
    Fails P (MonadExcept.throw err : Edit σ α) := by
  intro s err' s' hrun
  cases hrun
  exact h

/-- A sequence fails as one of its steps does. -/
theorem Fails.bind {x : Edit σ α} {f : α → Edit σ β} (hx : Fails P x)
    (hf : ∀ a, Fails P (f a)) : Fails P (x >>= f) := by
  intro s err s' h
  rw [EStateM.run_bind] at h
  cases hrun : x.run s with
  | ok a t =>
      rw [hrun] at h
      exact hf a t err s' h
  | error err' t =>
      rw [hrun] at h
      cases h
      exact hx s err s' hrun

theorem Fails.get_bind {f : σ → Edit σ β} (h : ∀ s, Fails P (f s)) :
    Fails P (get >>= f) :=
  fun s err s' hrun => h s s err s' hrun

theorem Fails.lift {x : Except Error α} (h : ∀ err, x = .error err → P err) :
    Fails P (liftM x : Edit σ α) := by
  cases x with
  | ok a => exact .pure a
  | error err => exact .throw (h err rfl)

theorem Fails.guard {c : Prop} [Decidable c] {err : Error} {x : Edit σ α}
    (herr : P err) (hx : Fails P x) :
    Fails P (if c then MonadExcept.throw err else x) := by
  split
  · exact .throw herr
  · exact hx

/-- What is done to a part fails as it would on the part alone. -/
theorem Fails.focus {part : σ → τ} {put : τ → σ → σ} {e : Edit τ α}
    (he : Fails P e) : Fails P (Edit.focus part put e) := by
  intro s err s' h
  obtain ⟨t, hrun, -⟩ := focus_error h
  exact he _ _ _ hrun

/-- What is tried does not fail, so only what comes next does. -/
theorem Fails.attempt_bind {x : Edit σ α} {f : Except Error α → Edit σ β}
    (hf : ∀ r, Fails P (f r)) : Fails P (attempt x >>= f) := by
  refine Fails.bind (fun s err s' h => ?_) hf
  rw [run_attempt] at h
  cases hrun : x.run s <;> rw [hrun] at h <;> cases h

/-- A loop fails as one of its rounds does. -/
theorem Fails.forM {f : α → Edit σ Unit} {l : List α}
    (h : ∀ a ∈ l, Fails P (f a)) : Fails P (l.forM f) := by
  induction l with
  | nil => exact .pure ()
  | cons a l ih =>
      obtain ⟨ha, hl⟩ := List.forall_mem_cons.1 h
      exact Fails.bind ha fun _ => ih hl

end Fails

-- ============================================= edits by their outcomes

section Ends

variable {ε : Type}

/-- An outcome with `Q`, or a failure with `E`. -/
def Meets (Q : α → σ → Prop) (E : σ → Prop) :
    EStateM.Result ε σ α → Prop
  | .ok a s => Q a s
  | .error _ s => E s

/-- The same of an outcome that is handed on as a value. -/
def Handed (Q : α → σ → Prop) (E : σ → Prop) : Except ε α → σ → Prop
  | .ok a, s => Q a s
  | .error _, s => E s

/-- From states with `P` the edit ends in `Q`, or fails in `E`. -/
def Ends (P : σ → Prop) (x : EStateM ε σ α) (Q : α → σ → Prop)
    (E : σ → Prop) : Prop :=
  ∀ s, P s → Meets Q E (x.run s)

variable {P P' E E' : σ → Prop} {Q Q' : α → σ → Prop}
  {R : β → σ → Prop} {x : EStateM ε σ α} {f : α → EStateM ε σ β}

/-- An answer ends where it started. -/
theorem Ends.pure {a : α} (h : ∀ s, P s → Q a s) :
    Ends P (Pure.pure a : EStateM ε σ α) Q E := h

theorem Ends.throw {err : ε} (h : ∀ s, P s → E s) :
    Ends P (MonadExcept.throw err : EStateM ε σ α) Q E := h

theorem Ends.set {t : σ} {R : PUnit → σ → Prop} (h : ∀ s, P s → R ⟨⟩ t) :
    Ends P (MonadStateOf.set t : EStateM ε σ PUnit) R E := h

/-- A change ends in the changed state. -/
theorem Ends.modify {g : σ → σ} {R : PUnit → σ → Prop}
    (h : ∀ s, P s → R ⟨⟩ (g s)) :
    Ends P (modify g : EStateM ε σ PUnit) R E := h

/-- A sequence ends as its second step does from where the first may end, or
as the first where that fails. -/
theorem Ends.bind (hx : Ends P x Q E) (hf : ∀ a, Ends (Q a) (f a) R E) :
    Ends P (x >>= f) R E := by
  intro s hs
  have hstep := hx s hs
  rw [EStateM.run_bind]
  cases hrun : x.run s with
  | ok a t =>
      rw [hrun] at hstep
      exact hf a t hstep
  | error err t =>
      rw [hrun] at hstep
      exact hstep

/-- What is read is the state itself. -/
theorem Ends.get_bind {f : σ → EStateM ε σ β}
    (h : ∀ s, P s → Ends (· = s) (f s) R E) : Ends P (get >>= f) R E :=
  fun s hs => h s hs s rfl

/-- More may be asked at the start, and less said of the end. -/
theorem Ends.weaken (h : Ends P x Q E) (hP : ∀ s, P' s → P s)
    (hQ : ∀ a s, Q a s → Q' a s) (hE : ∀ s, E s → E' s) :
    Ends P' x Q' E' := by
  intro s hs
  have hstep := h s (hP s hs)
  cases hrun : x.run s with
  | ok a t =>
      rw [hrun] at hstep
      exact hQ a t hstep
  | error err t =>
      rw [hrun] at hstep
      exact hE t hstep

/-- What is known of an edit from two sides is known of it at once. -/
theorem Ends.and (h : Ends P x Q E) (h' : Ends P' x Q' E') :
    Ends (fun s => P s ∧ P' s) x (fun a s => Q a s ∧ Q' a s)
      (fun s => E s ∧ E' s) := by
  intro s hs
  have hstep := h s hs.1
  have hstep' := h' s hs.2
  cases hrun : x.run s with
  | ok a t =>
      rw [hrun] at hstep hstep'
      exact ⟨hstep, hstep'⟩
  | error err t =>
      rw [hrun] at hstep hstep'
      exact ⟨hstep, hstep'⟩

/-- A check leaves the state alone either way. -/
theorem Ends.lift_bind {P E : σ → Prop} {R : β → σ → Prop}
    {x : Except Error α} {f : α → Edit σ β}
    (hok : ∀ a, x = .ok a → Ends P (f a) R E) (herr : ∀ s, P s → E s) :
    Ends P (liftM x >>= f) R E := by
  cases x with
  | ok a => exact hok a rfl
  | error err => exact herr

/-- Handing the outcome on as a value never fails. -/
theorem Ends.attempt {x : Edit σ α} (h : Ends P x Q E) :
    Ends P (attempt x) (Handed Q E) E' := by
  intro s hs
  have hstep := h s hs
  unfold Edit.attempt
  dsimp only [EStateM.run] at hstep ⊢
  cases hrun : x s with
  | ok a t =>
      rw [hrun] at hstep
      exact hstep
  | error err t =>
      rw [hrun] at hstep
      exact hstep

/-- An edit of a part ends as the part does. -/
theorem Ends.focus {part : σ → τ} {put : τ → σ → σ} {e : Edit τ α}
    (h : ∀ s, P s → Ends (· = part s) e (fun a t => Q a (put t s))
      (fun t => E (put t s))) : Ends P (Edit.focus part put e) Q E := by
  intro s hs
  have hstep := h s hs (part s) rfl
  unfold Edit.focus
  dsimp only [EStateM.run] at hstep ⊢
  cases hrun : e (part s) with
  | ok a t =>
      rw [hrun] at hstep
      exact hstep
  | error err t =>
      rw [hrun] at hstep
      exact hstep

/-- Whatever its outcome, the edit leaves a property as it was. -/
def Preserves (P : σ → Prop) (x : EStateM ε σ α) : Prop :=
  Ends P x (fun _ => P) P

/-- Where a property holds of one state, preserving it is enough there. -/
theorem Preserves.of_eq (h : Preserves P x) {s : σ} (hs : P s) :
    Ends (· = s) x (fun _ => P) P := by
  intro t ht
  exact h t (ht ▸ hs)

end Ends

-- ============================================== edits sure of their result

section Yields

variable {P Q R : σ → Prop} {x : Edit σ α} {f : α → Edit σ β} {a : α} {b : β}

/-- From states with `P` the edit succeeds with one certain result, and ends
in states with `Q`. -/
def Yields (P : σ → Prop) (x : Edit σ α) (a : α) (Q : σ → Prop) : Prop :=
  ∀ s, P s → ∃ s', Gives x s a s' ∧ Q s'

theorem Yields.pure (P : σ → Prop) (a : α) :
    Yields P (Pure.pure a : Edit σ α) a P :=
  fun s hs => ⟨s, rfl, hs⟩

/-- A sequence yields what its steps do. -/
theorem Yields.bind (hx : Yields P x a Q) (hf : Yields Q (f a) b R) :
    Yields P (x >>= f) b R := by
  intro s hs
  obtain ⟨s', hgives, hs'⟩ := hx s hs
  obtain ⟨s'', hgives', hs''⟩ := hf s' hs'
  exact ⟨s'', gives_bind.2 ⟨a, s', hgives, hgives'⟩, hs''⟩

/-- What a check makes of the state is certain if the check is. -/
theorem Yields.asks {g : σ → Except Error α} (hg : ∀ s, P s → g s = .ok a)
    (hf : Yields P (f a) b Q) :
    Yields P (do let s ← get; let a ← g s; f a) b Q := by
  refine fun s hs => ?_
  obtain ⟨s', hgives, hs'⟩ := hf s hs
  refine ⟨s', gives_bind.2 ⟨s, s, rfl, ?_⟩, hs'⟩
  exact gives_bind.2 ⟨a, s, gives_lift.2 ⟨hg s hs, rfl⟩, hgives⟩

/-- The same edit of everything in a list, each with its result. -/
theorem Yields.mapM {f : α → Edit σ β} {g : α → β} {l : List α}
    (h : ∀ a ∈ l, Yields P (f a) (g a) P) :
    Yields P (l.mapM f) (l.map g) P := by
  induction l with
  | nil => exact .pure P []
  | cons a l ih =>
      obtain ⟨ha, hl⟩ := List.forall_mem_cons.1 h
      rw [List.mapM_cons]
      exact ha.bind ((ih hl).bind (.pure P _))

end Yields

end Edit

end Colonnade
