/-
Verifying against opening. Both read the same frames, but they judge them
apart: opening carries each record out on a snapshot and stops at the first
that it cannot, verifying only counts versions, goes on behind a gap and
opens a copy at the end if there was none.

Two readings are compared by what the second still has to do. While opening
succeeds, verifying has found no gap, stands at the version of the snapshot,
and would give from the frame reached what it gives from the start. So where
opening comes to its end, so does verifying, with the same summary, and the
copy that it opens then is what was opened. Where opening fails, the copy
fails too, or verifying has found something before.

Chain: `History.Opened` has what opening does to any bytes.
-/
import Colonnade.Proofs.History.Opened
import Colonnade.Report.Verify

namespace Colonnade

namespace History

open Wire

-- =================================================== along one reading

section Along

variable {σ : Type} {store : Store} {visit : Nat → CommitRecord → Edit σ Unit}

/-- The summary after one more frame. -/
def Summary.after (done : Summary) (h : Header) : Summary :=
  { done with
    records := done.records + 1
    newestFormat := max done.newestFormat h.format }

/-- The summary of a reading that ends at an offset. -/
def Summary.ending (done : Summary) (store : Store) (offset : Nat) :
    Summary :=
  { done with validLength := offset, tornTail := store.size - offset }

/-- Whether a reading ends at an offset: the store does, or breaks off the
frame there. -/
def Rests (store : Store) (offset : Nat) : Prop :=
  store.size ≤ offset ∨ offset < store.size ∧ frameAt? store offset = .ok none

/-- Where one reading ends, every reading does. -/
theorem Rests.readFrom_eq {offset : Nat} (h : Rests store offset)
    (done : Summary) :
    readFrom store visit offset done = pure (done.ending store offset) := by
  rcases h with hout | ⟨hin, hnone⟩
  · exact readFrom_end hout
  · exact readFrom_torn hin hnone

/-- What holds at the start of a reading and is kept from frame to frame
holds where the reading ends. -/
theorem readFrom_keeps {Inv : Nat → Summary → σ → Prop}
    (hstep : ∀ {offset done s h r s'}, Inv offset done s →
      offset < store.size → frameAt? store offset = .ok (some (h, r)) →
      Edit.Gives (visit offset r) s () s' →
      Inv (offset + h.frameLength) (done.after h) s')
    {offset : Nat} {done sum : Summary} {s s' : σ}
    (hread : Edit.Gives (readFrom store visit offset done) s sum s')
    (hinv : Inv offset done s) :
    ∃ stop last, Inv stop last s' ∧ Rests store stop
      ∧ sum = last.ending store stop := by
  -- on what is left to read
  induction hleft : store.size - offset using Nat.strongRecOn
    generalizing offset done s with
  | ind n ih =>
      by_cases hin : offset < store.size
      · cases hfound : frameAt? store offset with
        | error err =>
            rw [readFrom_damaged hin hfound] at hread
            exact (Edit.gives_throw.1 hread).elim
        | ok found =>
            cases found with
            | none =>
                rw [readFrom_torn hin hfound] at hread
                obtain ⟨rfl, rfl⟩ := Edit.gives_pure.1 hread
                exact ⟨offset, done, hinv, .inr ⟨hin, hfound⟩, rfl⟩
            | some found =>
                have hpos := headerSize_le found.1
                have hheader : 0 < headerSize := by decide
                rw [readFrom_found hin hfound] at hread
                obtain ⟨_, t, hseen, hread⟩ := Edit.gives_bind.1 hread
                have hnext := hstep hinv hin hfound hseen
                exact ih _ (by omega) hread hnext rfl
      · rw [readFrom_end (Nat.not_lt.1 hin)] at hread
        obtain ⟨rfl, rfl⟩ := Edit.gives_pure.1 hread
        exact ⟨offset, done, hinv, .inl (Nat.not_lt.1 hin), rfl⟩

/-- A second visitor beside a first one. As long as it takes the steps that
the first takes, what relates the two is kept, and in the end both readings
come to the same end. If it refuses a step, its reading has failed there, and
what is so from then on is so in the end. -/
theorem read_beside {τ : Type} {visit' : Nat → CommitRecord → Edit τ Unit}
    {R : Summary → σ → τ → Prop} {F : σ → Error → τ → Prop}
    (hstep : ∀ {offset done h r s s' t}, R done s t →
      Edit.Gives (visit offset r) s () s' →
      (∃ t', Edit.Gives (visit' offset r) t () t' ∧ R (done.after h) s' t')
        ∨ ∃ err t', (visit' offset r).run t = .error err t'
          ∧ F s' err t')
    (hfailed : ∀ {offset r s s' err t}, F s err t →
      Edit.Gives (visit offset r) s () s' → F s' err t)
    {sum : Summary} {s s' : σ} {t : τ}
    (hread : Edit.Gives (read store visit) s sum s') (hstart : R {} s t) :
    (∃ t' stop last, Edit.Gives (read store visit') t sum t'
        ∧ R last s' t' ∧ sum = last.ending store stop)
      ∨ ∃ err t', (read store visit').run t = .error err t'
        ∧ F s' err t' := by
  -- from the frame reached on, the second does what it does from the start
  let Inv (offset : Nat) (done : Summary) (s : σ) : Prop :=
    (∃ u, R done s u ∧ (read store visit').run t
        = (readFrom store visit' offset done).run u)
      ∨ ∃ err t', (read store visit').run t = .error err t' ∧ F s err t'
  have hkept {offset : Nat} {done : Summary} {s : σ} {h : Header}
      {r : CommitRecord} {s' : σ} (hinv : Inv offset done s)
      (hin : offset < store.size)
      (hfound : frameAt? store offset = .ok (some (h, r)))
      (hseen : Edit.Gives (visit offset r) s () s') :
      Inv (offset + h.frameLength) (done.after h) s' := by
    rcases hinv with ⟨u, hrel, hrest⟩ | ⟨err, t', hrun, hbad⟩
    · rw [readFrom_found hin hfound, EStateM.run_bind] at hrest
      rcases hstep (h := h) hrel hseen with
        ⟨u', hvisit, hrel'⟩ | ⟨err, u', hvisit, hbad⟩
      · unfold Edit.Gives at hvisit
        rw [hvisit] at hrest
        exact .inl ⟨u', hrel', hrest⟩
      · rw [hvisit] at hrest
        exact .inr ⟨err, u', hrest, hbad⟩
    · exact .inr ⟨err, t', hrun, hfailed hbad hseen⟩
  have hfirst : Inv 0 {} s := .inl ⟨t, hstart, rfl⟩
  obtain ⟨stop, last, hinv, hrests, rfl⟩ := readFrom_keeps hkept hread hfirst
  rcases hinv with ⟨u, hrel, hrest⟩ | hfails
  · rw [hrests.readFrom_eq] at hrest
    exact .inl ⟨u, stop, last, hrest, hrel, rfl⟩
  · exact .inr hfails

/-- Where a second visitor can take every step that a first one takes, and
what relates the two is kept, the second reading comes to the same end. -/
theorem read_along {τ : Type} {visit' : Nat → CommitRecord → Edit τ Unit}
    {R : Summary → σ → τ → Prop}
    (hstep : ∀ {offset done h r s s' t}, R done s t →
      Edit.Gives (visit offset r) s () s' →
      ∃ t', Edit.Gives (visit' offset r) t () t' ∧ R (done.after h) s' t')
    {sum : Summary} {s s' : σ} {t : τ}
    (hread : Edit.Gives (read store visit) s sum s') (hstart : R {} s t) :
    ∃ t' stop last, Edit.Gives (read store visit') t sum t'
      ∧ R last s' t' ∧ sum = last.ending store stop := by
  have hends := read_beside (F := fun _ _ _ => False)
    (fun hrel hseen => .inl (hstep hrel hseen)) (fun h _ => h) hread hstart
  rcases hends with hends | ⟨_, _, _, hnever⟩
  · exact hends
  · exact hnever.elim

/-- What the visitor keeps the reading keeps, however it ends. -/
theorem read_preserves {P : σ → Prop}
    (hvisit : ∀ offset r, Edit.Preserves P (visit offset r)) :
    Edit.Preserves P (read store visit) := by
  suffices hfrom : ∀ offset done,
      Edit.Preserves P (readFrom store visit offset done) from hfrom 0 {}
  intro offset done
  -- on what is left to read
  induction hleft : store.size - offset using Nat.strongRecOn
    generalizing offset done with
  | ind n ih =>
      by_cases hin : offset < store.size
      · cases hfound : frameAt? store offset with
        | error err =>
            rw [readFrom_damaged hin hfound]
            exact .throw fun _ h => h
        | ok found =>
            cases found with
            | none =>
                rw [readFrom_torn hin hfound]
                exact .pure fun _ h => h
            | some found =>
                have hpos := headerSize_le found.1
                have hheader : 0 < headerSize := by decide
                rw [readFrom_found hin hfound]
                exact .bind (hvisit offset found.2) fun _ =>
                  ih _ (by omega) _ _ rfl
      · rw [readFrom_end (Nat.not_lt.1 hin)]
        exact .pure fun _ h => h

/-- What was read are whole frames, and the summary counts them. -/
theorem read_counts {sum : Summary} {s s' : σ} (hexact : store.Exact)
    (hread : Edit.Gives (read store visit) s sum s') :
    ∃ records, Framed (store.bytes.take sum.validLength) records
      ∧ sum.records = records.length := by
  let Inv (offset : Nat) (done : Summary) (_ : σ) : Prop :=
    ∃ records, Framed (store.bytes.take offset) records
      ∧ done.records = records.length
  have hstep {offset : Nat} {done : Summary} {s : σ} {h : Header}
      {r : CommitRecord} {s' : σ} (hinv : Inv offset done s)
      (_ : offset < store.size)
      (hfound : frameAt? store offset = .ok (some (h, r)))
      (_ : Edit.Gives (visit offset r) s () s') :
      Inv (offset + h.frameLength) (done.after h) s' := by
    obtain ⟨records, hframed, hcount⟩ := hinv
    obtain ⟨data, rest, hdrop, hframe⟩ := (frameAt?_eq_some hexact).1 hfound
    refine ⟨records ++ [r], ?_, ?_⟩
    · rw [List.take_add, hdrop, ← hframe.length_eq, List.take_left]
      exact hframed.append hframe
    · simp [Summary.after, hcount]
  have hstart : Inv 0 {} s := ⟨[], .nil, rfl⟩
  obtain ⟨stop, last, ⟨records, hframed, hcount⟩, -, rfl⟩ :=
    readFrom_keeps hstep hread hstart
  exact ⟨records, hframed, hcount⟩

end Along

end History

-- ======================================================= two readings

namespace Report.Verification

open History

/-- Verifying is level with replaying: no gap was found, and the versions are
the same and number the records read. -/
structure Level (done : Summary) (p : Progress) (s : Snapshot) : Prop where
  gaps : p.gaps = []
  last : p.last = s.version
  counted : s.version.raw = .ofNat done.records

/-- A record that replays is no gap. -/
theorem Level.record {done : Summary} {p : Progress} {s s' : Snapshot}
    {r : CommitRecord} {h : Wire.Header} (hlevel : Level done p s)
    (hreplays : Snapshot.Replays r s s') (offset : Nat) :
    ∃ p', Edit.Gives (visit .wrapping offset r) p () p'
      ∧ Level (done.after h) p' s' := by
  have hversion := hreplays.version_eq
  obtain ⟨t, -, rfl⟩ := hreplays.applied
  have hlast : r.version = p.last.next := by rw [hlevel.last, hversion]
  refine ⟨⟨r.version, [], p.brokenOff⟩, ?_, rfl, rfl, ?_⟩
  · simp [visit, Sums.next?, hlast, hlevel.gaps]
  · simp [hversion, Version.next, hlevel.counted, Summary.after]

/-- Where a replay comes to its end, verifying does, with the same summary
and level with it. -/
theorem visits_of_replays {store : Store} {sum : Summary} {s : Snapshot}
    (hread : Edit.Gives (read store Snapshot.replayRecord) .empty sum s) :
    ∃ p, Edit.Gives (read store (visit .wrapping)) {} sum p
      ∧ Level sum p s := by
  let R (done : Summary) (s : Snapshot) (p : Progress) : Prop :=
    Level done p s
  have hstep {offset : Nat} {done : Summary} {h : Wire.Header}
      {r : CommitRecord} {s s' : Snapshot} {p : Progress} (hlevel : R done s p)
      (hseen : Edit.Gives (Snapshot.replayRecord offset r) s () s') :
      ∃ p', Edit.Gives (visit .wrapping offset r) p () p'
        ∧ R (done.after h) s' p' :=
    hlevel.record (Snapshot.gives_replayRecord.1 hseen) offset
  have hstart : R {} .empty {} := ⟨rfl, rfl, rfl⟩
  obtain ⟨p, stop, last, hvisits, hlevel, rfl⟩ :=
    read_along hstep hread hstart
  exact ⟨p, hvisits, hlevel.gaps, hlevel.last, hlevel.counted⟩

-- ========================================================== the report

/-- What opens is found to be sound. -/
theorem gather_of_opened {b : Bytes} {e : Engine} {after : Store}
    {sum : Summary}
    (hread : Edit.Gives (read (.memory b) Snapshot.replayRecord) .empty sum
      e.current)
    (hopen : Engine.openOver (.memory b) {} = (.ok e, after)) :
    (gather .wrapping).run b = .ok (some ⟨sum.records, sum.validLength,
      sum.tornTail, some e.version, []⟩) b := by
  obtain ⟨p, hvisits, hlevel⟩ := visits_of_replays hread
  have hrun : (read (.memory b) (visit .wrapping)).run {} = .ok sum p :=
    hvisits
  have hreplay : replay b = .ok e.version := by
    rw [replay, hopen]
    rfl
  have hfound : found b sum p = ⟨sum.records, sum.validLength, sum.tornTail,
      some e.version, []⟩ := by
    simp [found, hlevel.gaps, hreplay]
  simp [gather, EStateM.run_bind, hrun, hfound]

/-- Words that start over never end the program. -/
theorem visit_preserves_going (offset : Nat) (r : CommitRecord) :
    Edit.Preserves (fun p : Progress => p.brokenOff = false)
      (visit .wrapping offset r) :=
  .get_bind fun _ hgoing => .set fun _ _ => hgoing

/-- What does not open is found to be wrong, whether verifying noticed it
before it opened the copy or not. -/
theorem gather_of_refused {b : Bytes} {err : Error} {after : Store}
    (hopen : Engine.openOver (.memory b) {} = (.error err, after)) :
    ∃ v, (gather .wrapping).run b = .ok (some v) b ∧ v.isOk = false
      ∧ v.replayed = none := by
  have hreplay : replay b = .error err := by
    rw [replay, hopen]
    rfl
  have hkept : Edit.Preserves (fun p : Progress => p.brokenOff = false)
      (read (.memory b) (visit .wrapping)) :=
    read_preserves visit_preserves_going
  have hgoing := hkept {} rfl
  cases hrun : (read (.memory b) (visit .wrapping)).run {} with
  | error e p =>
      rw [hrun] at hgoing
      change p.brokenOff = false at hgoing
      refine ⟨{ errors := p.gaps ++ [e.message] }, ?_, ?_, rfl⟩
      · simp [gather, EStateM.run_bind, hrun, hgoing]
      · simp [isOk]
  | ok done p =>
      refine ⟨found b done p, ?_, ?_, ?_⟩
      · simp [gather, EStateM.run_bind, hrun]
      all_goals
        by_cases hgaps : p.gaps.isEmpty
        · simp [found, hgaps, hreplay, isOk]
        · simp [found, hgaps, isOk]

/-- Verifying any bytes, words starting over, gives a report and leaves them
as they are. The report is of a sound history exactly if they open. It then has the version
that opening reaches, which numbers the whole records, and accounts for every
byte, those that opening leaves and those that it cuts off. The report of
any other history has no version. -/
theorem verifies_what_opens (b : Bytes) :
    ∃ v, (gather .wrapping).run b = .ok (some v) b
      ∧ (v.isOk ↔ ∃ e after, Engine.openOver (.memory b) {} = (.ok e, after))
      ∧ (v.isOk → ∃ e after records,
        Engine.openOver (.memory b) {} = (.ok e, after)
        ∧ v.replayed = some e.version
        ∧ after = .memory (b.take v.validBytes)
        ∧ after.size = v.validBytes
        ∧ v.validBytes + v.tornTail = b.length
        ∧ Framed (b.take v.validBytes) records
        ∧ v.records = records.length
        ∧ e.version.raw = .ofNat v.records
        ∧ (b.length < 2 ^ 64 → e.version.raw.toNat = v.records))
      ∧ (¬ v.isOk → v.replayed = none) := by
  rcases (open_any_bytes b).2 {} with
    ⟨err, hopen, -⟩ | ⟨e, sum, hread, hopen, hsum, -, -⟩
  · obtain ⟨v, hrun, hwrong, hnone⟩ := gather_of_refused hopen
    refine ⟨v, hrun, ?_, ?_, fun _ => hnone⟩
    · simp [hwrong, hopen]
    · simp [hwrong]
  · have hrun := gather_of_opened hread hopen
    obtain ⟨p, -, hlevel⟩ := visits_of_replays hread
    have hexact : (Store.memory b).Exact := trivial
    obtain ⟨records, hframed, hcount⟩ := read_counts hexact hread
    have hfew := hframed.length_le
    have hsize : (b.take sum.validLength).length = sum.validLength := by
      rw [List.length_take]
      omega
    refine ⟨_, hrun, ?_, fun _ => ?_, fun hwrong => (hwrong rfl).elim⟩
    · simp [isOk, hopen]
    · refine ⟨e, _, records, hopen, rfl, rfl, hsize, hsum, hframed, hcount,
        hlevel.counted, fun hshort => ?_⟩
      -- every record takes a byte at least
      have hfits : sum.records < UInt64.size := by
        change records.length ≤ (b.take sum.validLength).length at hfew
        rw [UInt64.size]
        omega
      exact (congrArg UInt64.toNat hlevel.counted).trans
        (UInt64.toNat_ofNat_of_lt' hfits)

end Report.Verification

end Colonnade
