/-
The gaps that verifying reports. A record leaves a gap if its version is not
the one after that of the record before it, and the version after the newest
there can be is a number that no record has. Verifying counts in words. Where
sums are checked it breaks off behind a record of the newest version, with
no report at all; where words start over it expects zero there, and reports
the wrong number or nothing.

The reading with verifying is compared with a reading that only notes the
records, and the gaps that verifying has found with the gaps between the
records noted, both counted in words. The rest is about two ways of counting
along one list, which part at the first record that has one behind it and no
version after it in words.

Chain: beside a reading of one store with `History.read_beside`.
-/
import Colonnade.Proofs.History.Acknowledged
import Colonnade.Proofs.Report.Verified

namespace Colonnade.Report.Verification

open History HistoryLog

-- =============================================================== gaps

/-- A place in a history where a version is not the one that was expected. -/
structure Gap where
  offset : Nat
  expected : Nat
  found : Nat
deriving DecidableEq, Repr

/-- What is reported of a gap. -/
def Gap.text (g : Gap) : String :=
  s!"Version gap at offset {g.offset}: expected " ++
    s!"{g.expected}, found {g.found}"

/-- The gaps between a version and records with their places, where `next`
gives the version expected after another. -/
def gapsAfter (next : Nat → Nat) (last : Nat) :
    List (Nat × CommitRecord) → List Gap
  | [] => []
  | n :: ns =>
    if n.2.version.raw.toNat = next last then
      gapsAfter next n.2.version.raw.toNat ns
    else
      ⟨n.1, next last, n.2.version.raw.toNat⟩ ::
        gapsAfter next n.2.version.raw.toNat ns

/-- The version after another, in words. -/
def wordNext (last : Nat) : Nat := (last + 1) % 2 ^ 64

/-- The version of the last record, or the one before all of them. -/
def lastOf (last : Nat) (ns : List (Nat × CommitRecord)) : Nat :=
  ns.foldl (fun _ n => n.2.version.raw.toNat) last

@[simp]
theorem lastOf_append (last : Nat) (ns : List (Nat × CommitRecord))
    (n : Nat × CommitRecord) :
    lastOf last (ns ++ [n]) = n.2.version.raw.toNat := by
  simp [lastOf]

section Counting

variable {next : Nat → Nat} {last : Nat} {n : Nat × CommitRecord}

theorem gapsAfter_cons_same (ns : List (Nat × CommitRecord))
    (h : n.2.version.raw.toNat = next last) :
    gapsAfter next last (n :: ns)
      = gapsAfter next n.2.version.raw.toNat ns :=
  if_pos h

theorem gapsAfter_cons_gap (ns : List (Nat × CommitRecord))
    (h : n.2.version.raw.toNat ≠ next last) :
    gapsAfter next last (n :: ns)
      = ⟨n.1, next last, n.2.version.raw.toNat⟩
        :: gapsAfter next n.2.version.raw.toNat ns :=
  if_neg h

/-- The gaps of two stretches are those of the first and those behind its last
version. -/
theorem gapsAfter_append (ns ms : List (Nat × CommitRecord)) :
    gapsAfter next last (ns ++ ms)
      = gapsAfter next last ns ++ gapsAfter next (lastOf last ns) ms := by
  induction ns generalizing last with
  | nil => rfl
  | cons n ns ih =>
      rw [List.cons_append]
      by_cases hsame : n.2.version.raw.toNat = next last
      · rw [gapsAfter_cons_same _ hsame, gapsAfter_cons_same _ hsame, ih]
        rfl
      · rw [gapsAfter_cons_gap _ hsame, gapsAfter_cons_gap _ hsame, ih]
        rfl

end Counting

/-- Whether the version after that of a record is a word. -/
def HasNext (n : Nat × CommitRecord) : Prop :=
  n.2.version.raw.toNat + 1 < 2 ^ 64

instance decidableHasNext (n : Nat × CommitRecord) : Decidable (HasNext n) :=
  inferInstanceAs (Decidable (_ < _))

/-- There is a next version unless sums are checked and it is too large. -/
theorem next?_eq_some {sums : Sums} {v w : Version} :
    sums.next? v = some w
      ↔ v.next = w ∧ (sums = .checked → v.raw.toNat + 1 < 2 ^ 64) := by
  cases sums <;> simp [Sums.next?, UInt64.size, and_comm]

/-- There is no next version where sums are checked and it is too large. -/
theorem next?_eq_none {sums : Sums} {v : Version} :
    sums.next? v = none
      ↔ sums = .checked ∧ ¬ v.raw.toNat + 1 < 2 ^ 64 := by
  cases sums <;> simp [Sums.next?, UInt64.size]

-- =================================================== along two readings

/-- Verifying has found the gaps between what was noted. Where sums are
checked every version expected so far was a word. -/
structure Follows (sums : Sums) (done : Summary)
    (ns : List (Nat × CommitRecord)) (p : Progress) : Prop where
  last : p.last.raw.toNat = lastOf 0 ns
  gaps : p.gaps = (gapsAfter wordNext 0 ns).map Gap.text
  counted : done.records = ns.length
  fits : sums = .checked → ∀ n ∈ ns.dropLast, HasNext n

/-- Verifying has broken off behind one of the records noted, which has
another behind it. -/
structure BrokeOff (sums : Sums) (ns : List (Nat × CommitRecord))
    (p : Progress) : Prop where
  noted : p.brokenOff = true
  checked : sums = .checked
  newest : ¬ ∀ n ∈ ns.dropLast, HasNext n

/-- The version to expect behind what was noted, where it is a word. -/
theorem Follows.hasNext {sums : Sums} {done : Summary}
    {ns : List (Nat × CommitRecord)} {p : Progress}
    (h : Follows sums done ns p) (hchecked : sums = .checked) :
    (∀ n ∈ ns, HasNext n) ↔ p.last.raw.toNat + 1 < 2 ^ 64 := by
  rcases List.eq_nil_or_concat ns with rfl | ⟨front, n, rfl⟩
  · have hlast : p.last.raw.toNat = 0 := h.last
    rw [hlast]
    exact iff_of_true nofun (by decide)
  · rw [List.concat_eq_append] at h ⊢
    have hfront := h.fits hchecked
    rw [List.dropLast_concat] at hfront
    rw [h.last, lastOf_append, List.forall_mem_append]
    exact (and_iff_right hfront).trans (List.forall_mem_singleton)

/-- One more record is noted. Verifying finds the gap before it, or has no
word for the version to expect and breaks off. -/
theorem Follows.record {sums : Sums} {done : Summary}
    {ns : List (Nat × CommitRecord)} {p : Progress}
    (h : Follows sums done ns p) (header : Wire.Header) (offset : Nat)
    (r : CommitRecord) :
    (∃ p', Edit.Gives (visit sums offset r) p () p'
        ∧ Follows sums (done.after header) (ns ++ [(offset, r)]) p')
      ∨ ∃ err p', (visit sums offset r).run p = .error err p'
        ∧ BrokeOff sums (ns ++ [(offset, r)]) p' := by
  cases hnext : sums.next? p.last with
  | none =>
      obtain ⟨hchecked, hbeyond⟩ := next?_eq_none.1 hnext
      have hrun : (visit sums offset r).run p
          = .error (.fatal (.text "attempt to add with overflow"))
            { p with brokenOff := true } := by
        simp only [visit, EStateM.run_bind, EStateM.run_get, hnext]
        rfl
      refine .inr ⟨_, _, hrun, rfl, hchecked, ?_⟩
      rw [List.dropLast_concat, h.hasNext hchecked]
      exact hbeyond
  | some expected =>
      obtain ⟨rfl, hfits⟩ := next?_eq_some.1 hnext
      -- whichever sums there are, what is expected is the next word
      have hword : p.last.next.raw.toNat = wordNext (lastOf 0 ns) := by
        rw [← h.last]
        exact UInt64.toNat_add _ _
      let gap : Gap :=
        ⟨offset, p.last.next.raw.toNat, r.version.raw.toNat⟩
      have hseen : Edit.Gives (visit sums offset r) p ()
          { p with
            last := r.version
            gaps := if r.version = p.last.next then p.gaps
              else p.gaps ++ [gap.text] } := by
        simp only [visit, Edit.gives_bind, Edit.gives_get]
        exact ⟨p, p, ⟨rfl, rfl⟩, by rw [hnext]; exact Edit.gives_set.2 rfl⟩
      refine .inl ⟨_, hseen, ?_, ?_, ?_, fun hchecked => ?_⟩
      · rw [lastOf_append]
      · rw [gapsAfter_append, List.map_append, ← h.gaps]
        dsimp only
        by_cases hgap : r.version = p.last.next
        · have hfound : r.version.raw.toNat = wordNext (lastOf 0 ns) := by
            rw [hgap, hword]
          rw [if_pos hgap, gapsAfter_cons_same [] hfound]
          exact (List.append_nil _).symm
        · have hfound : r.version.raw.toNat ≠ wordNext (lastOf 0 ns) := by
            rw [← hword]
            exact fun h => hgap (congrArg Version.mk (UInt64.toNat_inj.1 h))
          rw [if_neg hgap, gapsAfter_cons_gap [] hfound, ← hword]
          rfl
      · simp [Summary.after, h.counted]
      · rw [List.dropLast_concat, h.hasNext hchecked]
        exact hfits hchecked

/-- Having broken off is not undone by what is noted behind it. -/
theorem BrokeOff.append {sums : Sums} {ns : List (Nat × CommitRecord)}
    {p : Progress} (h : BrokeOff sums ns p) (n : Nat × CommitRecord) :
    BrokeOff sums (ns ++ [n]) p := by
  refine ⟨h.noted, h.checked, fun hall => h.newest fun m hm => hall m ?_⟩
  rw [List.dropLast_concat]
  exact List.dropLast_subset ns hm

end Colonnade.Report.Verification
