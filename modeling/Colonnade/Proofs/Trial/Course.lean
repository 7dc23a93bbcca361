/-
Trials of the ledger find nothing wrong. Whoever takes which turns, between
any two of them a trial is on its `Course`: the ledger is the one that the
book has after the commits so far, and every transaction there is reads one
of the versions up to then. A reader is in its seat from its first turn on;
the seats tell which transactions the trial will come back to, and that no
two readers share one.

A commit succeeds and keeps the course, and so does a reader who begins, moves
on or goes. So every turn, every list of turns and the last looks after them
leave a trial `Clean`, by induction on the turns.

Chain: over `Trial.Ledger`; nothing above uses this, it is what the trial is
for.
-/
import Colonnade.Proofs.Trial.Ledger

namespace Colonnade.Trial.Ledger

open Engine Logical

variable {limits : Limits} {n : Nat} {p : Plan}

-- ============================================================ a course

/-- A transaction that reads the ledger as one of so many commits left it, or
as it was made. -/
structure Reads (p : Plan) (n : Nat) (t : Transaction) : Prop where
  idle : ¬ t.IsWriting
  mode_eq : t.view.mode = .reading
  shown : ∃ j, j ≤ n ∧ t.pinned.raw.toNat = j + 1
    ∧ t.view.snapshot.Shows (Book.after p j).database

/-- A reader stays one of an earlier commit. -/
theorem Reads.mono {t : Transaction} (h : Reads p n t) {m : Nat}
    (hle : n ≤ m) : Reads p m t := by
  obtain ⟨j, hj, hshown⟩ := h.shown
  exact ⟨h.idle, h.mode_eq, j, Nat.le_trans hj hle, hshown⟩

/-- What a trial is like between turns, after so many commits: the ledger is
that of the book, all transactions read one of the versions there were, and
those of the readers are among them. -/
structure Course (p : Plan) (limits : Limits) (n : Nat)
    (seats : Nat → Option Reader) (e : Engine) : Prop
    extends Holds limits (Book.after p n).database e where
  version_eq : e.version.raw.toNat = n + 1
  reads : ∀ id t, e.transaction? id = some t → Reads p n t
  seated : ∀ k r, seats k = some r → (∃ t, e.transaction? r.id = some t)
    ∧ r.last.raw.toNat ≤ n + 1
  distinct : ∀ k k' r r', seats k = some r → seats k' = some r' →
    r.id = r'.id → k = k'

namespace Course

variable {e e' : Engine} {seats : Nat → Option Reader} {r : Reader}
  {t : Transaction} {k : Nat} {id : TransactionId}

/-- The current snapshot balances. -/
theorem balances (h : Course p limits n seats e) (hn : n ≤ 2 ^ 61) :
    Balances e.current amountKey (Book.after p n) :=
  balances_of_shows h.current (Book.sound_after p hn) hn

/-- Whatever version a transaction has, the ledger balances in it. -/
theorem balances_shown (h : Course p limits n seats e) (hn : n ≤ 2 ^ 61)
    (ht : e.transaction? id = some t) :
    ∃ j, j ≤ n ∧ t.pinned.raw.toNat = j + 1
      ∧ Balances t.view.snapshot amountKey (Book.after p j) := by
  obtain ⟨j, hj, hpinned, hshows⟩ := (h.reads id t ht).shown
  have hfits : j ≤ 2 ^ 61 := Nat.le_trans hj hn
  exact ⟨j, hj, hpinned,
    balances_of_shows hshows (Book.sound_after p hfits) hfits⟩

/-- One more commit takes the course on. -/
theorem commit (h : Course p limits n seats e) (hn : n < 2 ^ 61) :
    ∃ e', Edit.Gives (commit p amountKey n) e () e'
      ∧ Course p limits (n + 1) seats e' := by
  have hreading : ∀ a t, e.transaction? a = some t →
      t.view.mode ≠ .writing := by
    intro a t ht
    rw [(h.reads a t ht).mode_eq]
    exact nofun
  obtain ⟨e', hgives, he'⟩ := commit_hosts (p := p) h.toHolds hreading
    (Book.sound_after p (by omega)) hn
  refine ⟨e', hgives, he'.toHolds, ?_, fun id t ht => ?_, fun k r hk => ?_,
    h.distinct⟩
  · rw [he'.version_eq]
    show (e.version.raw + 1).toNat = _
    rw [UInt64.toNat_add, h.version_eq]
    show (n + 1 + 1) % 2 ^ 64 = _
    omega
  · rw [he'.transactions_eq] at ht
    exact (h.reads id t ht).mono (Nat.le_succ n)
  · obtain ⟨hthere, hlast⟩ := h.seated k r hk
    rw [he'.transactions_eq]
    exact ⟨hthere, Nat.le_succ_of_le hlast⟩

/-- A transaction that reads is put in, and its reader takes a seat. -/
theorem seat (h : Course p limits n seats e)
    (he' : Hosts limits (Book.after p n).database e.version
      (update e.transaction? r.id (some t)) e')
    (hreads : Reads p n t) (hlast : r.last.raw.toNat ≤ n + 1)
    (hown : ∀ k' r', seats k' = some r' → r'.id = r.id → k' = k) :
    Course p limits n (update seats k (some r)) e' := by
  have hthere (id : TransactionId) : e'.transaction? id
      = if id = r.id then some t else e.transaction? id :=
    congrFun he'.transactions_eq id
  refine ⟨he'.toHolds, (congrArg (·.raw.toNat) he'.version_eq).trans
    h.version_eq, fun id u hu => ?_, fun k' r' hk' => ?_,
    fun k' k'' r' r'' hk' hk'' hid => ?_⟩
  · rw [hthere] at hu
    split at hu
    next => exact Option.some.inj hu ▸ hreads
    next => exact h.reads id u hu
  · rw [hthere]
    unfold update at hk'
    split at hk'
    next =>
      obtain rfl := Option.some.inj hk'
      exact ⟨⟨t, if_pos rfl⟩, hlast⟩
    next =>
      obtain ⟨⟨u, hu⟩, hlast'⟩ := h.seated k' r' hk'
      refine ⟨?_, hlast'⟩
      split
      · exact ⟨t, rfl⟩
      · exact ⟨u, hu⟩
  -- two seats of one transaction would both be the new one
  · unfold update at hk' hk''
    split at hk' <;> split at hk''
    next heq heq' => rw [heq, heq']
    next heq _ =>
      obtain rfl := Option.some.inj hk'
      exact heq.trans (hown k'' r'' hk'' hid.symm).symm
    next _ heq =>
      obtain rfl := Option.some.inj hk''
      exact (hown k' r' hk' hid).trans heq.symm
    next => exact h.distinct k' k'' r' r'' hk' hk'' hid

/-- A reader begins. -/
theorem beginRead (h : Course p limits n seats e) (k : Nat) :
    ∃ id e', Edit.Gives beginRead e id e'
      ∧ e'.versionOf id = .ok e.version
      ∧ Course p limits n (update seats k (some ⟨id, e.version⟩)) e' := by
  obtain ⟨e', hgives, hfresh, he'⟩ := h.toHolds.beginRead
  have hreads : Reads p n
      ⟨{ mode := .reading, snapshot := e.current }, e.version, .reader⟩ :=
    ⟨nofun, rfl, n, Nat.le_refl n, h.version_eq, h.current⟩
  have hthere : e'.transaction? e.nextId = _ :=
    (congrFun he'.transactions_eq e.nextId).trans (if_pos rfl)
  refine ⟨e.nextId, e', hgives, versionOf_eq_ok.2 ⟨_, hthere, rfl⟩,
    h.seat he' hreads (Nat.le_of_eq h.version_eq) fun k' r' hk' hid => ?_⟩
  obtain ⟨⟨t, ht⟩, -⟩ := h.seated k' r' hk'
  rw [hid, hfresh] at ht
  cases ht

/-- A reader finds that the ledger balances. -/
theorem sum (h : Course p limits n seats e) (hn : n ≤ 2 ^ 61)
    (hk : seats k = some r) :
    ∃ rows, Edit.Gives (sum r.id amountKey) e (0, rows) e
      ∧ rows % 2 = 0 := by
  obtain ⟨⟨t, ht⟩, -⟩ := h.seated k r hk
  obtain ⟨-, hmode, j, hj, -, hshows⟩ := h.reads r.id t ht
  have hb := Book.sound_after p (Nat.le_trans hj hn)
  have hsees : Sees ⟨r.id, t.view.generation⟩ (Book.after p j).database e := by
    refine ⟨t, ht, View.admits_iff.2 ⟨?_, rfl⟩, hshows⟩
    rw [hmode]
    exact nofun
  obtain ⟨_, hgives, rfl⟩ := yields_sum (P := (· = e)) hb
    (Nat.le_trans hj hn) (fun e' he' => he' ▸ hsees) e rfl
  exact ⟨_, hgives, hb.balanced.even⟩

/-- A reader finds nothing to complain of. -/
theorem check (h : Course p limits n seats e) (hn : n ≤ 2 ^ 61)
    (hk : seats k = some r) : Edit.Gives (r.check amountKey) e [] e := by
  obtain ⟨rows, hsum, heven⟩ := h.sum hn hk
  refine Edit.gives_bind.2 ⟨_, e, Edit.gives_attempt_ok.2 hsum, ?_⟩
  refine Edit.gives_pure.2 ⟨if_pos ⟨rfl, heven⟩, rfl⟩

/-- A reader moves on. -/
theorem move (h : Course p limits n seats e) (hk : seats k = some r) :
    ∃ r' e', Edit.Gives r.move e (r', []) e'
      ∧ Course p limits n (update seats k (some r')) e' := by
  obtain ⟨⟨t, ht⟩, hlast⟩ := h.seated k r hk
  have hreads := h.reads r.id t ht
  obtain ⟨moved, u, e', hgives, hu, hpinned, he'⟩ :=
    h.toHolds.advance ht hreads.idle
  have hreads' : Reads p n u := by
    rcases hu with rfl | rfl
    · exact hreads
    · exact ⟨hreads.idle, rfl, n, Nat.le_refl n, h.version_eq, h.current⟩
  have hthere : e'.transaction? r.id = some u :=
    (congrFun he'.transactions_eq r.id).trans (if_pos rfl)
  have hversion : e'.versionOf r.id = .ok e.version :=
    versionOf_eq_ok.2 ⟨u, hthere, hpinned⟩
  have hforward : ¬ e.version.raw < r.last.raw := by
    rw [UInt64.lt_iff_toNat_lt, h.version_eq]
    omega
  refine ⟨{ r with last := e.version }, e', ?_,
    h.seat (r := ⟨r.id, e.version⟩) he' hreads' (Nat.le_of_eq h.version_eq)
      fun k' r' hk' hid => h.distinct k' k r' r hk' hk hid⟩
  refine Edit.gives_bind.2 ⟨moved, e', hgives, ?_⟩
  refine Edit.gives_bind.2 ⟨e', e', rfl, ?_⟩
  refine Edit.gives_bind.2 ⟨e.version, e', Edit.gives_lift.2 ⟨hversion, rfl⟩,
    ?_⟩
  rw [if_neg hforward]
  rfl

/-- A reader goes. -/
theorem drop (h : Course p limits n seats e) (hk : seats k = some r) :
    ∃ e', Edit.Gives (drop r.id) e () e'
      ∧ Course p limits n (update seats k none) e' := by
  obtain ⟨⟨t, ht⟩, -⟩ := h.seated k r hk
  obtain ⟨e', hgives, he'⟩ := h.toHolds.drop ht (h.reads r.id t ht).idle
  have hthere (id : TransactionId) : e'.transaction? id
      = if id = r.id then none else e.transaction? id :=
    congrFun he'.transactions_eq id
  have hseats {k' : Nat} {r' : Reader}
      (hk' : update seats k none k' = some r') :
      k' ≠ k ∧ seats k' = some r' := by
    unfold update at hk'
    split at hk'
    next => cases hk'
    next hne => exact ⟨hne, hk'⟩
  refine ⟨e', hgives, he'.toHolds, (congrArg (·.raw.toNat)
    he'.version_eq).trans h.version_eq, fun id u hu => ?_,
    fun k' r' hk' => ?_, fun k' k'' r' r'' hk' hk'' hid => ?_⟩
  · rw [hthere] at hu
    split at hu
    next => cases hu
    next => exact h.reads id u hu
  · obtain ⟨hne, hk'⟩ := hseats hk'
    rw [hthere, if_neg fun hid => hne (h.distinct k' k r' r hk' hk hid)]
    exact h.seated k' r' hk'
  · exact h.distinct k' k'' r' r'' (hseats hk').2 (hseats hk'').2 hid

/-- It does not matter who is not looked at any more. -/
theorem leave (h : Course p limits n seats e) :
    Course p limits n (fun _ => none) e :=
  { h with seated := nofun, distinct := nofun }

end Course

-- ============================================================= progress

namespace Progress

variable {e : Engine} {s : Progress} {k gone : Nat}

/-- The readers who have begun, but for the first of them, who have gone. -/
def seats (s : Progress) (gone : Nat) : Nat → Option Reader :=
  fun k => if k < gone then none else s.readers[k]?

/-- A trial that has found nothing wrong. -/
structure Clean (p : Plan) (limits : Limits) (gone : Nat) (s : Progress)
    (e : Engine) : Prop extends Course p limits s.commits (s.seats gone) e where
  tried_eq : s.tried = s.commits
  commits_le : s.commits ≤ p.commits
  violations_eq : s.violations = []

theorem note_nil (s : Progress) : s.note [] = s := by
  unfold note
  rw [List.append_nil]

/-- A reader is found in its seat, or takes it. -/
theorem course_reader (h : Course p limits n (s.seats gone) e)
    (hk : gone ≤ k) :
    ∃ r e', Edit.Gives (s.reader k) e r e'
      ∧ Course p limits n (update (s.seats gone) k (some r)) e' := by
  unfold reader
  split
  next r hr =>
    have hseat : s.seats gone k = some r := by
      unfold seats
      rw [if_neg (Nat.not_lt.2 hk), hr]
    exact ⟨r, e, rfl, (update_self hseat).symm ▸ h⟩
  next =>
    obtain ⟨id, e', hgives, hversion, he'⟩ := h.beginRead k
    refine ⟨⟨id, e.version⟩, e', ?_, he'⟩
    refine Edit.gives_bind.2 ⟨id, e', hgives, ?_⟩
    refine Edit.gives_bind.2 ⟨e', e', rfl, ?_⟩
    exact Edit.gives_bind.2 ⟨e.version, e',
      Edit.gives_lift.2 ⟨hversion, rfl⟩, rfl⟩

/-- A turn of the writer stays clean, and commits if there is something left
to. -/
theorem Clean.writes (h : s.Clean p limits 0 e) (hp : p.commits ≤ 2 ^ 61) :
    ∃ s' e', Edit.Gives (s.write p amountKey) e s' e'
      ∧ s'.Clean p limits 0 e'
      ∧ s'.commits = min p.commits (s.commits + 1) := by
  have hle := h.commits_le
  unfold write
  rw [h.tried_eq]
  by_cases hdone : p.commits ≤ s.commits
  · refine ⟨s, e, ?_, h, by omega⟩
    rw [if_pos hdone]
    rfl
  · obtain ⟨e', hcommit, he'⟩ := h.toCourse.commit (by omega)
    refine ⟨{ s with tried := s.commits + 1, commits := s.commits + 1 }, e',
      ?_, ⟨he', rfl, Nat.not_le.1 hdone, h.violations_eq⟩,
      (Nat.min_eq_right (Nat.not_le.1 hdone)).symm⟩
    rw [if_neg hdone]
    exact Edit.gives_bind.2 ⟨.ok (), e', Edit.gives_attempt_ok.2 hcommit, rfl⟩

/-- A turn of a reader stays clean. -/
theorem Clean.looks (h : s.Clean p limits 0 e) (hp : p.commits ≤ 2 ^ 61)
    (k : Nat) :
    ∃ s' e', Edit.Gives (s.look p amountKey k) e s' e'
      ∧ s'.Clean p limits 0 e' ∧ s'.commits = s.commits := by
  have hn : s.commits ≤ 2 ^ 61 := Nat.le_trans h.commits_le hp
  unfold look
  by_cases hnone : p.readers ≤ k
  · refine ⟨s, e, ?_, h, rfl⟩
    rw [if_pos hnone]
    rfl
  obtain ⟨r, e₁, hreader, he₁⟩ := course_reader h.toCourse (Nat.zero_le k)
  have hseat : update (s.seats 0) k (some r) k = some r := if_pos rfl
  obtain ⟨r', e₂, hmove, he₂⟩ := he₁.move hseat
  let s' : Progress := { s with readers := s.readers.insert k r' }
  have hseats : s'.seats 0
      = update (update (s.seats 0) k (some r)) k (some r') := by
    funext k'
    have hinsert : s'.seats 0 k'
        = if k' = k then some r' else s.readers[k']? :=
      OrderedMap.getElem?_insert s.readers k k' r'
    rw [hinsert]
    unfold update
    split <;> rfl
  refine ⟨s', e₂, ?_, ⟨hseats ▸ he₂, h.tried_eq, h.commits_le,
    h.violations_eq⟩, rfl⟩
  rw [if_neg hnone]
  refine Edit.gives_bind.2 ⟨r, e₁, hreader, ?_⟩
  refine Edit.gives_bind.2 ⟨[], e₁, he₁.check hn hseat, ?_⟩
  refine Edit.gives_bind.2 ⟨(r', []), e₂, hmove, ?_⟩
  exact Edit.gives_pure.2 ⟨note_nil s', rfl⟩

/-- Every turn stays clean. -/
theorem Clean.steps (h : s.Clean p limits 0 e) (hp : p.commits ≤ 2 ^ 61)
    (turn : Turn) :
    ∃ s' e', Edit.Gives (s.step p amountKey turn) e s' e'
      ∧ s'.Clean p limits 0 e'
      ∧ s'.commits = min p.commits (s.commits + [turn].count .writer) := by
  cases turn with
  | writer => exact h.writes hp
  | reader k =>
      obtain ⟨s', e', hgives, he', hcommits⟩ := h.looks hp k
      refine ⟨s', e', hgives, he', hcommits.trans ?_⟩
      exact (Nat.min_eq_right h.commits_le).symm

/-- Turns in any order find nothing wrong. -/
theorem Clean.turns (h : s.Clean p limits 0 e) (hp : p.commits ≤ 2 ^ 61)
    (turns : List Turn) :
    ∃ s' e', Edit.Gives (turns.foldlM (step p amountKey) s) e s' e'
      ∧ s'.Clean p limits 0 e'
      ∧ s'.commits = min p.commits (s.commits + turns.count .writer) := by
  induction turns generalizing s e with
  | nil =>
      exact ⟨s, e, rfl, h, (Nat.min_eq_right h.commits_le).symm⟩
  | cons turn turns ih =>
      obtain ⟨s₁, e₁, hstep, he₁, hcommits₁⟩ := h.steps hp turn
      obtain ⟨s', e', hturns, he', hcommits⟩ := ih he₁
      refine ⟨s', e', ?_, he', ?_⟩
      · rw [List.foldlM_cons]
        exact Edit.gives_bind.2 ⟨s₁, e₁, hstep, hturns⟩
      · rw [hcommits, hcommits₁,
          show turn :: turns = [turn] ++ turns from rfl, List.count_append]
        omega

/-- The last looks, one reader after the other. -/
theorem Clean.lastLooks (h : s.Clean p limits gone e)
    (hp : p.commits ≤ 2 ^ 61) (more : Nat) :
    ∃ e', Edit.Gives ((List.range' gone more).foldlM (lastLook amountKey) s)
        e s e' ∧ s.Clean p limits (gone + more) e' := by
  have hn : s.commits ≤ 2 ^ 61 := Nat.le_trans h.commits_le hp
  induction more generalizing gone e with
  | zero => exact ⟨e, rfl, h⟩
  | succ more ih =>
      obtain ⟨r, e₁, hreader, he₁⟩ :=
        course_reader h.toCourse (Nat.le_refl gone)
      have hseat : update (s.seats gone) gone (some r) gone = some r :=
        if_pos rfl
      obtain ⟨e₂, hdrop, he₂⟩ := he₁.drop hseat
      have hseats : s.seats (gone + 1)
          = update (update (s.seats gone) gone (some r)) gone none := by
        funext k
        unfold update seats
        by_cases hk : k = gone
        · rw [if_pos hk, if_pos (by omega)]
        · rw [if_neg hk, if_neg hk]
          exact if_congr (by omega) rfl rfl
      have hnext : s.Clean p limits (gone + 1) e₂ :=
        ⟨hseats ▸ he₂, h.tried_eq, h.commits_le, h.violations_eq⟩
      obtain ⟨e', hrest, he'⟩ := ih hnext
      refine ⟨e', ?_, (Nat.add_right_comm gone 1 more) ▸ he'⟩
      rw [List.range'_succ, List.foldlM_cons]
      refine Edit.gives_bind.2 ⟨s, e₂, ?_, hrest⟩
      refine Edit.gives_bind.2 ⟨r, e₁, hreader, ?_⟩
      refine Edit.gives_bind.2 ⟨[], e₁, he₁.check hn hseat, ?_⟩
      refine Edit.gives_bind.2 ⟨(), e₂, hdrop, ?_⟩
      exact Edit.gives_pure.2 ⟨note_nil s, rfl⟩

/-- The state in the end is the right one. -/
theorem Clean.ends (h : s.Clean p limits gone e)
    (hp : p.commits ≤ 2 ^ 61) :
    ∃ e', Edit.Gives (s.lastState amountKey) e s e'
      ∧ Course p limits s.commits (fun _ => none) e' := by
  have hn : s.commits ≤ 2 ^ 61 := Nat.le_trans h.commits_le hp
  obtain ⟨id, e₁, hbegin, hversion, he₁⟩ := h.toCourse.beginRead 0
  have hseat : update (s.seats gone) 0 (some ⟨id, e.version⟩) 0
      = some ⟨id, e.version⟩ := if_pos rfl
  obtain ⟨rows, hsum, -⟩ := he₁.sum hn hseat
  obtain ⟨e₂, hdrop, he₂⟩ := he₁.drop hseat
  refine ⟨e₂, ?_, he₂.leave⟩
  refine Edit.gives_bind.2 ⟨id, e₁, hbegin, ?_⟩
  refine Edit.gives_bind.2 ⟨e₁, e₁, rfl, ?_⟩
  refine Edit.gives_bind.2 ⟨e.version, e₁,
    Edit.gives_lift.2 ⟨hversion, rfl⟩, ?_⟩
  refine Edit.gives_bind.2 ⟨.ok (0, rows), e₁,
    Edit.gives_attempt_ok.2 hsum, ?_⟩
  refine Edit.gives_bind.2 ⟨(), e₂, hdrop, ?_⟩
  exact Edit.gives_pure.2 ⟨(if_pos rfl).trans (if_pos h.version_eq), rfl⟩

end Progress

/-- A trial starts well. -/
theorem clean_start {e : Engine}
    (h : Hosts limits (Book.database {}) ⟨1⟩ (fun _ => none) e) :
    Progress.Clean p limits 0 {} e := by
  have hseats (k : Nat) : ({} : Progress).seats 0 k = none :=
    Std.TreeMap.getElem?_emptyc
  refine ⟨⟨h.toHolds, ?_, fun id t ht => ?_, fun k r hk => ?_,
    fun k k' r r' hk => ?_⟩, rfl, Nat.zero_le _, rfl⟩
  · rw [h.version_eq]
    rfl
  · rw [h.transactions_eq] at ht
    cases ht
  · rw [hseats] at hk
    cases hk
  · rw [hseats] at hk
    cases hk

/-- From the turns to the end of a trial: it makes the commits that are left,
and everybody looks for the last time. -/
theorem run_clean {config : Config} {e₀ : Engine}
    (hcreate : Edit.Gives create (Engine.inMemory config) amountKey e₀)
    (hstart : Progress.Clean p config.limits 0 {} e₀)
    (hcommits : p.commits ≤ 2 ^ 61) (turns : List Turn) :
    ∃ s e, Edit.Gives (run p turns) (Engine.inMemory config) s e
      ∧ s.violations = [] ∧ s.commits = p.commits
      ∧ Course p config.limits p.commits (fun _ => none) e := by
  obtain ⟨s₁, e₁, hturns, he₁, -⟩ := hstart.turns hcommits turns
  obtain ⟨s, e₂, hrest, he₂, hmade⟩ := he₁.turns hcommits
    (List.replicate (p.commits - s₁.tried) .writer)
  obtain ⟨e₃, hlooks, he₃⟩ := he₂.lastLooks hcommits p.readers
  obtain ⟨e₄, hstate, he₄⟩ := he₃.ends hcommits
  have hall : s.commits = p.commits := by
    rw [hmade, List.count_replicate_self, he₁.tried_eq]
    omega
  refine ⟨s, e₄, ?_, he₂.violations_eq, hall, hall ▸ he₄⟩
  refine Edit.gives_bind.2 ⟨amountKey, e₀, hcreate, ?_⟩
  refine Edit.gives_bind.2 ⟨s₁, e₁, hturns, ?_⟩
  refine Edit.gives_bind.2 ⟨s, e₂, hrest, ?_⟩
  refine Edit.gives_bind.2 ⟨s, e₃, ?_, hstate⟩
  rw [List.range_eq_range']
  exact hlooks

/-- The ledger balances in every version of a new database in memory, and no
reader finds anything else. This is about an engine without a log, as a trial
of versions and readers has it; a store that refuses an append would make a
commit fail, and nothing is said of that. The table is made in the first version. After
that, whoever takes which turns, every commit that is tried succeeds and
makes the next version, so that their number tells the version; and the
ledger is as the book says after that many commits, and balances, in what is
current and in whatever version anybody has at the time. A whole trial makes
all the commits it is to make and finds nothing wrong. -/
theorem balances_in_every_version (config : Config) (p : Plan)
    (hcommits : p.commits ≤ 2 ^ 61) :
    ∃ amount e₀, create.run (Engine.inMemory config) = .ok amount e₀
      ∧ e₀.version = ⟨1⟩
      ∧ (∀ turns : List Turn, ∃ s e,
        (turns.foldlM (Progress.step p amount) {}).run e₀ = .ok s e
          ∧ s.violations = [] ∧ s.tried = s.commits
          ∧ s.commits = min p.commits (turns.count .writer)
          ∧ e.version.raw.toNat = s.commits + 1
          ∧ Balances e.current amount (Book.after p s.commits)
          ∧ ∀ id t, e.transaction? id = some t →
            ∃ j, j ≤ s.commits ∧ t.pinned.raw.toNat = j + 1
              ∧ Balances t.view.snapshot amount (Book.after p j))
      ∧ ∀ turns : List Turn, ∃ s e,
        (run p turns).run (Engine.inMemory config) = .ok s e
          ∧ s.violations = [] ∧ s.commits = p.commits
          ∧ e.version.raw.toNat = p.commits + 1
          ∧ Balances e.current amount (Book.after p p.commits) := by
  obtain ⟨e₀, hcreate, he₀⟩ := create_hosts config
  have hstart : Progress.Clean p config.limits 0 {} e₀ := clean_start he₀
  refine ⟨amountKey, e₀, hcreate, he₀.version_eq, fun turns => ?_,
    fun turns => ?_⟩
  · obtain ⟨s, e, hturns, he, hmade⟩ := hstart.turns hcommits turns
    have hn : s.commits ≤ 2 ^ 61 := Nat.le_trans he.commits_le hcommits
    rw [show ({} : Progress).commits = 0 from rfl, Nat.zero_add] at hmade
    exact ⟨s, e, hturns, he.violations_eq, he.tried_eq, hmade, he.version_eq,
      he.toCourse.balances hn, fun id t => he.toCourse.balances_shown hn⟩
  · obtain ⟨s, e, hrun, hclean, hall, he⟩ :=
      run_clean hcreate hstart hcommits turns
    exact ⟨s, e, hrun, hclean, hall, he.version_eq, he.balances hcommits⟩

/-- Two readers who look now and then while two pairs are added and one is
removed. -/
def threeCommits : List Turn :=
  [.reader 0, .writer, .writer, .reader 1, .reader 0, .writer, .reader 1]

/-- In the end there is one pair, that of the second commit. -/
theorem balances_in_every_version_threeCommits :
    ∃ s e, (run ⟨3, 2, 2⟩ threeCommits).run (Engine.inMemory {}) = .ok s e
      ∧ s.violations = [] ∧ s.commits = 3 ∧ e.version = ⟨4⟩
      ∧ ∃ t amount, e.current.tableNamed? tableName = some t
        ∧ t.objectKeys.map (t.valueOf · amount)
          = [.ok (.int 2), .ok (.int (-2))] := by
  obtain ⟨amount, -, -, -, -, hruns⟩ :=
    balances_in_every_version {} ⟨3, 2, 2⟩ (by decide)
  obtain ⟨s, e, hrun, hclean, hcommits, hversion, hbalances⟩ :=
    hruns threeCommits
  have hentries : (Book.after ⟨3, 2, 2⟩ 3).entries = [2, -2] := by decide
  obtain ⟨t, hnamed, hamounts⟩ := hbalances.entries
  rw [hentries] at hamounts
  exact ⟨s, e, hrun, hclean, hcommits,
    congrArg Version.mk (UInt64.toNat_inj.1 hversion), t, amount, hnamed,
    hamounts⟩

end Colonnade.Trial.Ledger
