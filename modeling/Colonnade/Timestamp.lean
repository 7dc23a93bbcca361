/-
Points in time as whole seconds and nanoseconds since the epoch. Both parts
carry one sign and the nanoseconds stay below a second in magnitude, so
each instant has one representation and comparing the parts in turn is
comparing the instants: -1.5 s is (-1, -500000000). The type holds this
rule; `make` is the checked way in.

Outside the store a timestamp is a count of milliseconds. Reading one
truncates toward zero, which is what keeps the signs equal; writing one
drops what is finer than a millisecond and wraps at 64 bits.

Chain: a leaf of `Value`; the history log stores the two parts.
-/
import Colonnade.Error

namespace Colonnade

/-- The rule that the two parts of a timestamp keep. -/
def Timestamp.PartsAgree (seconds : Int64) (nanoseconds : Int32) : Prop :=
  (-1000000000 < nanoseconds ∧ nanoseconds < 1000000000) ∧
    ¬ ((0 < seconds ∧ nanoseconds < 0) ∨ (seconds < 0 ∧ 0 < nanoseconds))

instance (s : Int64) (n : Int32) : Decidable (Timestamp.PartsAgree s n) :=
  inferInstanceAs (Decidable (_ ∧ _))

/-- A point in time: seconds and nanoseconds of one sign. -/
structure Timestamp where
  seconds : Int64
  nanoseconds : Int32
  partsAgree : Timestamp.PartsAgree seconds nanoseconds
deriving DecidableEq

namespace Timestamp

/-- The epoch itself, the default of timestamp columns. -/
def epoch : Timestamp := ⟨0, 0, by decide⟩

instance : Inhabited Timestamp := ⟨epoch⟩

/-- Builds a timestamp from its parts; a part out of range is refused before
parts that disagree in sign. -/
def make (s : Int64) (n : Int32) : Except BadArgument Timestamp :=
  if hn : n ≤ -1000000000 ∨ 1000000000 ≤ n then
    .error (.nanosecondsOutOfRange n)
  else if hs : (0 < s ∧ n < 0) ∨ (s < 0 ∧ 0 < n) then
    .error (.signsDiffer s n)
  else
    .ok ⟨s, n, by
      rw [not_or, Int32.not_le, Int32.not_le] at hn
      exact ⟨hn, hs⟩⟩

/-- The nanoseconds that a count of milliseconds leaves beside its whole
seconds, with the sign of the count. -/
def nanosOfMillis (ms : Int64) : Int32 := (ms % 1000).toInt32 * 1000000

-- ========================================== milliseconds, in and out

/-- The remainder of a count of milliseconds fits its narrower word, so no
step of the conversion wraps. -/
theorem toInt_nanosOfMillis (ms : Int64) :
    (nanosOfMillis ms).toInt = ms.toInt.tmod 1000 * 1000000 := by
  have h1 : (ms % 1000).toInt = ms.toInt.tmod 1000 := by
    rw [Int64.toInt_mod]; rfl
  have hlt := Int.tmod_lt_of_pos ms.toInt (show (0 : Int) < 1000 by decide)
  have hgt := Int.lt_tmod_of_pos ms.toInt (show (0 : Int) < 1000 by decide)
  rw [nanosOfMillis, Int32.toInt_mul, Int64.toInt_toInt32, h1]
  have h2 : (1000000 : Int32).toInt = 1000000 := rfl
  have h3 : (ms.toInt.tmod 1000).bmod (2 ^ 32) = ms.toInt.tmod 1000 :=
    Int.bmod_eq_of_le (by omega) (by omega)
  rw [h2, h3, Int.bmod_eq_of_le (by omega) (by omega)]

/-- Truncating division leaves quotient and remainder of one sign. -/
theorem partsAgree_ofMillis (ms : Int64) :
    PartsAgree (ms / 1000) (nanosOfMillis ms) := by
  have hs : (ms / 1000).toInt = ms.toInt.tdiv 1000 := by
    rw [Int64.toInt_div]
    have h3 : (1000 : Int64).toInt = 1000 := rfl
    rw [h3]
    have := ms.le_toInt
    have := ms.toInt_lt
    have hq := Int.mul_tdiv_add_tmod ms.toInt 1000
    have hlt := Int.tmod_lt_of_pos ms.toInt (show (0 : Int) < 1000 by decide)
    have hgt := Int.lt_tmod_of_pos ms.toInt (show (0 : Int) < 1000 by decide)
    rw [Int.bmod_eq_of_le (by omega) (by omega)]
  have hn := toInt_nanosOfMillis ms
  have hq := Int.mul_tdiv_add_tmod ms.toInt 1000
  have hlt := Int.tmod_lt_of_pos ms.toInt (show (0 : Int) < 1000 by decide)
  have hgt := Int.lt_tmod_of_pos ms.toInt (show (0 : Int) < 1000 by decide)
  have k1 : (-1000000000 : Int32).toInt = -1000000000 := rfl
  have k2 : (1000000000 : Int32).toInt = 1000000000 := rfl
  have k3 : (0 : Int32).toInt = 0 := rfl
  have k4 : (0 : Int64).toInt = 0 := rfl
  rw [PartsAgree]
  simp only [Int32.lt_iff_toInt_lt, Int64.lt_iff_toInt_lt, hs, hn, k1, k2, k3, k4]
  rcases Int.le_total 0 ms.toInt with h | h
  · have := Int.tmod_nonneg 1000 h
    have := Int.tdiv_nonneg h (show (0:Int) ≤ 1000 by decide)
    omega
  · have hr := Int.tmod_nonneg 1000 (show (0 : Int) ≤ -ms.toInt by omega)
    rw [Int.neg_tmod] at hr
    have hd := Int.tdiv_nonneg (show (0 : Int) ≤ -ms.toInt by omega)
      (show (0 : Int) ≤ 1000 by decide)
    rw [Int.neg_tdiv] at hd
    omega

/-- The instant that a count of milliseconds names. -/
def ofMillis (ms : Int64) : Timestamp :=
  ⟨ms / 1000, nanosOfMillis ms, partsAgree_ofMillis ms⟩

/-- The instant as milliseconds; what is finer is dropped, and seconds too
large for the word wrap. -/
def toMillis (t : Timestamp) : Int64 :=
  t.seconds * 1000 + (t.nanoseconds / 1000000).toInt64

-- ============================================== order and text

/-- Instants are ordered by their seconds, then by their nanoseconds. -/
instance : Ord Timestamp :=
  ⟨fun a b =>
    (compare a.seconds b.seconds).then (compare a.nanoseconds b.nanoseconds)⟩

/-- The digits of a number, filled up with zeros on the left. -/
def paddedDigits (width n : Nat) : String :=
  String.ofList ((Nat.toDigits 10 n).leftpad width '0')

/-- Seconds with nine decimal places; the sign of an instant in the last
second before the epoch is not lost with its zero. -/
instance : ToString Timestamp :=
  ⟨fun t =>
    let sign :=
      if t.seconds == 0 && t.nanoseconds < 0 then "-" else ""
    let places := paddedDigits 9 t.nanoseconds.toInt.natAbs
    s!"{sign}{t.seconds}.{places}s"⟩

end Timestamp

end Colonnade
