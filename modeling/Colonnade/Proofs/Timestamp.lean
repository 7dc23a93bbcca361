/-
Timestamps as exact numbers. An instant is a whole number of nanoseconds
since the epoch, counted without any word size, and what timestamps are
converted to and how they are ordered is compared with that number.

The two parts have one sign. So a second outweighs whatever nanoseconds stand
beside it, and comparing the parts in turn is comparing the instants; and
cutting off what is finer than a millisecond cuts the nanoseconds alone,
toward zero on either side of the epoch. A count of milliseconds that is read
leaves no step a result that its word cannot hold. One that is written may:
the seconds are multiplied in 64 bits, and what is written is then the right
number modulo 2^64.

Chain: nothing above uses this; it is what a caller may read off `ofMillis`,
`toMillis` and the order of timestamps.
-/
import Colonnade.Timestamp
import Mathlib.Algebra.Group.Nat.Defs
import Mathlib.Tactic.Common

namespace Colonnade.Timestamp

variable {s : Int64} {n : Int32} {t : Timestamp}

/-- The instant in nanoseconds since the epoch, as an exact number. -/
def nanos (t : Timestamp) : Int :=
  t.seconds.toInt * 1000000000 + t.nanoseconds.toInt

-- =========================================================== the parts

/-- The rule of the parts, said of exact numbers. -/
theorem partsAgree_iff :
    PartsAgree s n
      ↔ (-1000000000 < n.toInt ∧ n.toInt < 1000000000)
        ∧ (0 < s.toInt → 0 ≤ n.toInt) ∧ (s.toInt < 0 → n.toInt ≤ 0) := by
  have hlow : (-1000000000 : Int32).toInt = -1000000000 := rfl
  have hhigh : (1000000000 : Int32).toInt = 1000000000 := rfl
  have hzero : (0 : Int32).toInt = 0 := rfl
  have hzero' : (0 : Int64).toInt = 0 := rfl
  simp only [PartsAgree, Int32.lt_iff_toInt_lt, Int64.lt_iff_toInt_lt, hlow,
    hhigh, hzero, hzero']
  omega

/-- Parts that agree are accepted, and make the timestamp that has them. -/
theorem make_eq_ok : make s n = .ok t ↔ s = t.seconds ∧ n = t.nanoseconds := by
  constructor
  · intro h
    unfold make at h
    split at h
    next => cases h
    next =>
      split at h
      next => cases h
      next =>
        cases h
        exact ⟨rfl, rfl⟩
  · rintro ⟨rfl, rfl⟩
    obtain ⟨⟨hlow, hhigh⟩, hsigns⟩ := t.partsAgree
    unfold make
    rw [dif_neg, dif_neg hsigns]
    rw [not_or, Int32.not_le, Int32.not_le]
    exact ⟨hlow, hhigh⟩

-- ============================================================= in

theorem toInt_seconds_ofMillis (ms : Int64) :
    (ofMillis ms).seconds.toInt = ms.toInt.tdiv 1000 :=
  Int64.toInt_div_of_ne_right ms 1000 (by decide)

/-- The remainder fits the narrower word that it is cast to. -/
theorem toInt_remainder (ms : Int64) :
    (ms % 1000).toInt32.toInt = ms.toInt.tmod 1000 := by
  have hpos : (0 : Int) < 1000 := by decide
  have hlt := Int.tmod_lt_of_pos ms.toInt hpos
  have hgt := Int.lt_tmod_of_pos ms.toInt hpos
  have hmod : (ms % 1000).toInt = ms.toInt.tmod 1000 := by
    rw [Int64.toInt_mod]
    rfl
  rw [Int64.toInt_toInt32, hmod]
  exact Int.bmod_eq_of_le (by omega) (by omega)

/-- A count of milliseconds names the instant that is so many of them from
the epoch. -/
theorem nanos_ofMillis (ms : Int64) :
    (ofMillis ms).nanos = ms.toInt * 1000000 := by
  have hparts := Int.tdiv_mul_add_tmod ms.toInt 1000
  unfold nanos
  rw [toInt_seconds_ofMillis]
  show _ + (nanosOfMillis ms).toInt = _
  rw [toInt_nanosOfMillis]
  omega

-- ============================================================== out

/-- Whole seconds are whole milliseconds, so only the nanoseconds are cut. -/
theorem tdiv_nanos (t : Timestamp) :
    t.nanos.tdiv 1000000
      = t.seconds.toInt * 1000 + t.nanoseconds.toInt.tdiv 1000000 := by
  have hcut : t.nanos
      = t.nanoseconds.toInt + t.seconds.toInt * 1000 * 1000000 := by
    unfold nanos
    omega
  obtain ⟨-, hpos, hneg⟩ := partsAgree_iff.1 t.partsAgree
  rcases Int.lt_trichotomy t.seconds.toInt 0 with hs | hs | hs
  · -- before the epoch both are truncated upward
    have hn := hneg hs
    rw [← Int.neg_inj, ← Int.neg_tdiv, Int.neg_add, ← Int.neg_tdiv,
      Int.tdiv_eq_ediv_of_nonneg (by omega),
      Int.tdiv_eq_ediv_of_nonneg (by omega)]
    omega
  · rw [hcut, hs]
    simp
  · have hn := hpos hs
    rw [Int.tdiv_eq_ediv_of_nonneg (by omega),
      Int.tdiv_eq_ediv_of_nonneg (by omega)]
    omega

/-- What is written is the instant in milliseconds, as far as 64 bits hold
it. -/
theorem toInt_toMillis (t : Timestamp) :
    t.toMillis.toInt = (t.nanos.tdiv 1000000).bmod (2 ^ 64) := by
  have hfine : (t.nanoseconds / 1000000).toInt64.toInt
      = t.nanoseconds.toInt.tdiv 1000000 := by
    rw [Int32.toInt_toInt64]
    exact Int32.toInt_div_of_ne_right t.nanoseconds 1000000 (by decide)
  have hwhole : (1000 : Int64).toInt = 1000 := rfl
  unfold toMillis
  rw [Int64.toInt_add, Int64.toInt_mul, hfine, hwhole, Int.bmod_add_bmod,
    tdiv_nanos]

/-- What was read in milliseconds is written back. -/
theorem toMillis_ofMillis (ms : Int64) : (ofMillis ms).toMillis = ms := by
  have hlow := ms.le_toInt
  have hhigh := ms.toInt_lt
  rw [← Int64.toInt_inj, toInt_toMillis, nanos_ofMillis,
    Int.mul_tdiv_cancel _ (by decide)]
  exact Int.bmod_eq_of_le (by omega) (by omega)

-- ============================================================ order

/-- Comparing the parts in turn compares the instants. -/
theorem compare_eq_compare_nanos (a b : Timestamp) :
    compare a b = compare a.nanos b.nanos := by
  have hseconds : compare a.seconds b.seconds
      = compare a.seconds.toInt b.seconds.toInt := by
    show compareOfLessAndEq _ _ = compareOfLessAndEq _ _
    simp only [compareOfLessAndEq, Int64.lt_iff_toInt_lt, Int64.toInt_inj]
  have hfine : compare a.nanoseconds b.nanoseconds
      = compare a.nanoseconds.toInt b.nanoseconds.toInt := by
    show compareOfLessAndEq _ _ = compareOfLessAndEq _ _
    simp only [compareOfLessAndEq, Int32.lt_iff_toInt_lt, Int32.toInt_inj]
  obtain ⟨ha, hapos, haneg⟩ := partsAgree_iff.1 a.partsAgree
  obtain ⟨hb, hbpos, hbneg⟩ := partsAgree_iff.1 b.partsAgree
  show (compare a.seconds b.seconds).then
    (compare a.nanoseconds b.nanoseconds) = _
  rw [hseconds, hfine]
  unfold nanos
  rcases Int.lt_trichotomy a.seconds.toInt b.seconds.toInt with hlt | heq | hgt
  · rw [Int.compare_eq_lt.2 hlt]
    exact (Int.compare_eq_lt.2 (by omega)).symm
  · -- in the same second the nanoseconds decide
    rw [heq, Std.compare_self, Ordering.eq_then]
    show compareOfLessAndEq _ _ = compareOfLessAndEq _ _
    simp only [compareOfLessAndEq, Int.add_lt_add_iff_left, Int.add_right_inj]
  · rw [Int.compare_eq_gt.2 hgt]
    exact (Int.compare_eq_gt.2 (by omega)).symm

/-- Every instant has one timestamp. -/
theorem eq_iff_nanos_eq {a b : Timestamp} : a = b ↔ a.nanos = b.nanos := by
  refine ⟨congrArg nanos, fun h => ?_⟩
  obtain ⟨ha, hapos, haneg⟩ := partsAgree_iff.1 a.partsAgree
  obtain ⟨hb, hbpos, hbneg⟩ := partsAgree_iff.1 b.partsAgree
  unfold nanos at h
  have hseconds : a.seconds = b.seconds := Int64.toInt_inj.1 (by omega)
  have hfine : a.nanoseconds = b.nanoseconds := Int32.toInt_inj.1 (by omega)
  obtain ⟨s, n, agree⟩ := a
  obtain rfl : s = b.seconds := hseconds
  obtain rfl : n = b.nanoseconds := hfine
  rfl

/-- Milliseconds, order and range of timestamps are those of exact numbers.
Any count of milliseconds is read without a step that its word cannot hold,
into parts that are accepted, and is written back as it was. The timestamps
are what is accepted, each by its own parts. They are equal if their instants
are and compare as their instants do, and what is written of one is its
instant in milliseconds, truncated toward zero and reduced modulo 2^64. -/
theorem millis_and_order_exact (ms : Int64) (a b : Timestamp) :
    ((ofMillis ms).seconds.toInt = ms.toInt.tdiv 1000
      ∧ (ms % 1000).toInt32.toInt = ms.toInt.tmod 1000
      ∧ (ofMillis ms).nanoseconds.toInt = ms.toInt.tmod 1000 * 1000000
      ∧ make (ofMillis ms).seconds (ofMillis ms).nanoseconds
        = .ok (ofMillis ms)
      ∧ (ofMillis ms).nanos = ms.toInt * 1000000
      ∧ (ofMillis ms).toMillis = ms)
    ∧ (∀ s n, make s n = .ok a ↔ s = a.seconds ∧ n = a.nanoseconds)
    ∧ (a = b ↔ a.nanos = b.nanos)
    ∧ compare a b = compare a.nanos b.nanos
    ∧ a.toMillis.toInt = (a.nanos.tdiv 1000000).bmod (2 ^ 64) := by
  refine ⟨⟨toInt_seconds_ofMillis ms, toInt_remainder ms,
    toInt_nanosOfMillis ms, make_eq_ok.2 ⟨rfl, rfl⟩, nanos_ofMillis ms,
    toMillis_ofMillis ms⟩, fun s n => make_eq_ok, eq_iff_nanos_eq,
    compare_eq_compare_nanos a b, toInt_toMillis a⟩

end Colonnade.Timestamp
