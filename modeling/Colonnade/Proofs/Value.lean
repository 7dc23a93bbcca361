/-
What comparing patterns decides. `Layout.equal` compares two floating-point
patterns bit by bit, with exceptions for what is no number and for the two
zeros. `Layout.equal_iff` says that this is comparison of numbers: patterns
are decoded and then compared as exact rationals, infinities by their sign.

The exceptions are the right ones because a number has one pattern. A finite
pattern stands for a multiple of the smallest number, `units`, and `units`
grows with the exponent field before it grows with the fraction, so only
zero leaves the sign open.

Chain: `Snapshot.Searched` says with it what a search finds.
-/
import Colonnade.Value
import Mathlib.Data.Rat.Lemmas
import Mathlib.Tactic.Ring

namespace Colonnade.Number

/-- The number that a sign, a mantissa and an exponent make. -/
def signed (negative : Bool) (mantissa : Nat) (exponent : Int) : ℚ :=
  (if negative then -1 else 1) * mantissa * 2 ^ exponent

/-- Comparison as the standard has it: finite numbers by what they are,
infinities by their sign, and what is no number equals nothing. -/
def Binary.Equal : Binary → Binary → Prop
  | infinite negative, infinite negative' => negative = negative'
  | finite negative m x, finite negative' m' x' =>
    signed negative m x = signed negative' m' x'
  | _, _ => False

namespace Layout

-- ================================================ a number has one pattern

/-- How many of the smallest numbers make up the magnitude that an exponent
field and a fraction stand for. -/
def units (n e f : Nat) : Nat :=
  if e = 0 then f else (2 ^ n + f) * 2 ^ (e - 1)

variable {n e e' f f' : Nat}

/-- A larger exponent is beyond all units of a smaller one. -/
theorem units_lt (hf : f < 2 ^ n) : units n e f < 2 ^ n * 2 ^ e := by
  unfold units
  split
  next he =>
    subst he
    simpa using hf
  next he =>
    obtain ⟨d, rfl⟩ := Nat.exists_eq_succ_of_ne_zero he
    have hpos : 0 < 2 ^ d := Nat.two_pow_pos d
    rw [Nat.pow_succ, Nat.mul_comm (2 ^ d), ← Nat.mul_assoc]
    exact Nat.mul_lt_mul_of_pos_right (by omega) hpos

/-- The units of an exponent start where those of the one below end. -/
theorem le_units (he : e ≠ 0) : 2 ^ n * 2 ^ (e - 1) ≤ units n e f := by
  unfold units
  rw [if_neg he]
  exact Nat.mul_le_mul_right _ (Nat.le_add_right _ _)

/-- A greater exponent field makes a greater number. -/
theorem units_lt_of_lt (hf : f < 2 ^ n) (he : e < e') :
    units n e f < units n e' f' := by
  have hpow : 2 ^ e ≤ 2 ^ (e' - 1) := Nat.pow_le_pow_right (by decide) (by omega)
  calc units n e f
      < 2 ^ n * 2 ^ e := units_lt hf
    _ ≤ 2 ^ n * 2 ^ (e' - 1) := Nat.mul_le_mul_left _ hpow
    _ ≤ units n e' f' := le_units (by omega)

/-- Different parts have different units. -/
theorem units_injective (hf : f < 2 ^ n) (hf' : f' < 2 ^ n)
    (h : units n e f = units n e' f') : e = e' ∧ f = f' := by
  rcases Nat.lt_trichotomy e e' with he | rfl | he
  · exact absurd h (Nat.ne_of_lt (units_lt_of_lt hf he))
  · refine ⟨rfl, ?_⟩
    unfold units at h
    split at h
    next => exact h
    next =>
      have := Nat.eq_of_mul_eq_mul_right (Nat.two_pow_pos _) h
      omega
  · exact absurd h.symm (Nat.ne_of_lt (units_lt_of_lt hf' he))

/-- Only zero has no units. -/
theorem units_eq_zero : units n e f = 0 ↔ e = 0 ∧ f = 0 := by
  unfold units
  split
  next he => simp [he]
  next he =>
    have hpow := Nat.two_pow_pos n
    simp [he]

variable {l : Layout} {a b : Nat}

theorem fraction_lt (l : Layout) (a : Nat) :
    l.fraction a < 2 ^ l.fractionBits := Nat.mod_lt _ (Nat.two_pow_pos _)

/-- A pattern is put together from its three parts. -/
theorem eq_of_parts (ha : a < 2 ^ (l.fractionBits + l.exponentBits + 1))
    (hb : b < 2 ^ (l.fractionBits + l.exponentBits + 1))
    (hsign : l.isNegative a = l.isNegative b)
    (he : l.exponentField a = l.exponentField b)
    (hf : l.fraction a = l.fraction b) : a = b := by
  have hsplit (c : Nat) (hc : c < 2 ^ (l.fractionBits + l.exponentBits + 1)) :
      c = l.fraction c + 2 ^ l.fractionBits * (l.exponentField c
        + 2 ^ l.exponentBits * if l.isNegative c then 1 else 0) := by
    have htop : c / 2 ^ (l.fractionBits + l.exponentBits)
        = if l.isNegative c then 1 else 0 := by
      have hlt : c / 2 ^ (l.fractionBits + l.exponentBits) < 2 :=
        Nat.div_lt_of_lt_mul (by rwa [← Nat.pow_succ])
      show _ = if (c / 2 ^ (l.fractionBits + l.exponentBits) % 2 == 1) = true
        then 1 else 0
      generalize c / 2 ^ (l.fractionBits + l.exponentBits) = q at hlt
      rcases (by omega : q = 0 ∨ q = 1) with rfl | rfl <;> rfl
    rw [← htop, Nat.pow_add, ← Nat.div_div_eq_div_mul]
    have hhigh := Nat.mod_add_div (c / 2 ^ l.fractionBits) (2 ^ l.exponentBits)
    have hlow := Nat.mod_add_div c (2 ^ l.fractionBits)
    show c = c % 2 ^ l.fractionBits + 2 ^ l.fractionBits
      * (c / 2 ^ l.fractionBits % 2 ^ l.exponentBits + _)
    rw [hhigh, hlow]
  rw [hsplit a ha, hsplit b hb, hsign, he, hf]

-- ================================================ what is compared

/-- The magnitude of a finite pattern in smallest numbers. -/
def magnitude (l : Layout) (a : Nat) : Nat :=
  units l.fractionBits (l.exponentField a) (l.fraction a)

/-- The largest exponent is that of the infinities and of what is no number.
-/
theorem decode_top (h : l.exponentField a = l.topExponent) :
    l.decode a
      = if l.fraction a = 0 then .infinite (l.isNegative a) else .nan := by
  simp [decode, h]

/-- Every other exponent is that of a number, signed and scaled. -/
theorem decode_finite (h : l.exponentField a ≠ l.topExponent) :
    ∃ m x, l.decode a = .finite (l.isNegative a) m x
      ∧ signed (l.isNegative a) m x
        = signed (l.isNegative a) (l.magnitude a) l.leastExponent := by
  unfold decode magnitude units
  by_cases hzero : l.exponentField a = 0
  · refine ⟨l.fraction a, l.leastExponent, ?_, ?_⟩
    · simp [h]
      simp [hzero]
    · rw [if_pos hzero]
  · refine ⟨2 ^ l.fractionBits + l.fraction a,
      l.leastExponent + (l.exponentField a - 1 : Int), ?_, ?_⟩
    · simp [h, hzero]
    · rw [if_neg hzero]
      have hcast : (l.exponentField a - 1 : Int)
          = ((l.exponentField a - 1 : Nat) : Int) := by omega
      unfold signed
      rw [hcast, zpow_add₀ (by norm_num), zpow_natCast]
      push_cast
      ring

/-- Multiples of one unit are the same if they have the same magnitude, and
the same sign unless they are zero. -/
theorem signed_eq_iff {s s' : Bool} {m m' : Nat} {x : Int} :
    signed s m x = signed s' m' x ↔ m = m' ∧ (s = s' ∨ m = 0) := by
  have hunit : (2 : ℚ) ^ x ≠ 0 := zpow_ne_zero x (by norm_num)
  have hcancel : signed s m x = signed s' m' x
      ↔ (if s then -1 else 1) * (m : Int) = (if s' then -1 else 1) * (m' : Int) := by
    unfold signed
    rw [mul_left_inj' hunit]
    cases s <;> cases s' <;> norm_cast
  rw [hcancel]
  cases s <;> cases s' <;> simp <;> omega

/-- What is no number has the largest exponent and a fraction. -/
theorem isNaN_iff :
    l.isNaN a = true ↔ l.exponentField a = l.topExponent ∧ l.fraction a ≠ 0 := by
  simp [isNaN]

/-- Zero is what has no magnitude. -/
theorem isZero_iff : l.isZero a = true ↔ l.magnitude a = 0 := by
  unfold magnitude
  rw [units_eq_zero]
  simp [isZero]

/-- Patterns that are the same number, should they be numbers: the same
pattern, or two zeros. -/
def Alike (l : Layout) (a b : Nat) : Prop :=
  a = b ∨ l.magnitude a = 0 ∧ l.magnitude b = 0

/-- Numbers are equal if they are numbers and alike. -/
theorem equal_iff_bits : l.equal a b = true
    ↔ ¬ l.isNaN a = true ∧ ¬ l.isNaN b = true ∧ l.Alike a b := by
  unfold Alike
  rw [← isZero_iff, ← isZero_iff]
  simp [equal, and_assoc]

theorem decode_nan (h : l.isNaN a = true) : l.decode a = .nan := by
  obtain ⟨he, hf⟩ := isNaN_iff.1 h
  rw [decode_top he, if_neg hf]

/-- A pattern that stands for a number is finite or an infinity. -/
theorem decode_cases (h : ¬ l.isNaN a = true) :
    l.exponentField a ≠ l.topExponent
      ∨ l.exponentField a = l.topExponent ∧ l.fraction a = 0
        ∧ l.decode a = .infinite (l.isNegative a) := by
  by_cases he : l.exponentField a = l.topExponent
  · have hf : l.fraction a = 0 := by
      by_contra hf
      exact h (isNaN_iff.2 ⟨he, hf⟩)
    exact Or.inr ⟨he, hf, by rw [decode_top he, if_pos hf]⟩
  · exact Or.inl he

/-- An infinity is not zero. -/
theorem magnitude_ne_zero (hbits : 0 < l.exponentBits)
    (h : l.exponentField a = l.topExponent) : l.magnitude a ≠ 0 := by
  intro hzero
  have htop : 2 ≤ 2 ^ l.exponentBits := Nat.le_self_pow (by omega) 2
  have hfield := (units_eq_zero.1 hzero).1
  rw [h] at hfield
  change 2 ^ l.exponentBits - 1 = 0 at hfield
  omega

/-- Finite numbers are the same multiple of one unit. -/
theorem alike_iff_finite
    (ha : a < 2 ^ (l.fractionBits + l.exponentBits + 1))
    (hb : b < 2 ^ (l.fractionBits + l.exponentBits + 1))
    (hea : l.exponentField a ≠ l.topExponent)
    (heb : l.exponentField b ≠ l.topExponent) :
    l.Alike a b ↔ (l.decode a).Equal (l.decode b) := by
  obtain ⟨m, x, hda, hma⟩ := decode_finite hea
  obtain ⟨m', x', hdb, hmb⟩ := decode_finite heb
  rw [hda, hdb]
  show _ ↔ signed _ m x = signed _ m' x'
  rw [hma, hmb, signed_eq_iff]
  constructor
  · rintro (rfl | ⟨hza, hzb⟩)
    · exact ⟨rfl, Or.inl rfl⟩
    · exact ⟨hza.trans hzb.symm, Or.inr hza⟩
  · rintro ⟨hmag, hsign | hzero⟩
    · obtain ⟨he, hf⟩ := units_injective (fraction_lt l a) (fraction_lt l b) hmag
      exact Or.inl (eq_of_parts ha hb hsign he hf)
    · exact Or.inr ⟨hzero, hmag ▸ hzero⟩

theorem Alike.symm (h : l.Alike a b) : l.Alike b a :=
  h.imp Eq.symm And.symm

/-- A finite number is not an infinity. -/
theorem not_alike_infinite (hbits : 0 < l.exponentBits)
    (hea : l.exponentField a ≠ l.topExponent)
    (heb : l.exponentField b = l.topExponent) : ¬ l.Alike a b := by
  rintro (rfl | ⟨-, hzero⟩)
  · exact hea heb
  · exact magnitude_ne_zero hbits heb hzero

/-- Comparing patterns is comparing what they stand for. -/
theorem equal_iff (hbits : 0 < l.exponentBits)
    (ha : a < 2 ^ (l.fractionBits + l.exponentBits + 1))
    (hb : b < 2 ^ (l.fractionBits + l.exponentBits + 1)) :
    l.equal a b = true ↔ (l.decode a).Equal (l.decode b) := by
  rw [equal_iff_bits]
  by_cases hna : l.isNaN a = true
  · rw [decode_nan hna]
    simp [hna, Binary.Equal]
  by_cases hnb : l.isNaN b = true
  · rw [decode_nan hnb]
    cases l.decode a <;> simp [hnb, Binary.Equal]
  have hnumbers {p : Prop} : (¬ l.isNaN a = true ∧ ¬ l.isNaN b = true ∧ p) ↔ p :=
    ⟨fun h => h.2.2, fun h => ⟨hna, hnb, h⟩⟩
  rw [hnumbers]
  rcases decode_cases hna with hea | ⟨hea, hfa, hda⟩ <;>
    rcases decode_cases hnb with heb | ⟨heb, hfb, hdb⟩
  · exact alike_iff_finite ha hb hea heb
  · obtain ⟨m, x, hda, -⟩ := decode_finite hea
    rw [hda, hdb]
    exact iff_of_false (not_alike_infinite hbits hea heb) id
  · obtain ⟨m, x, hdb, -⟩ := decode_finite heb
    rw [hda, hdb]
    exact iff_of_false
      (fun h => not_alike_infinite hbits heb hea (Alike.symm h)) id
  · rw [hda, hdb]
    show _ ↔ l.isNegative a = l.isNegative b
    constructor
    · rintro (rfl | ⟨hzero, -⟩)
      · rfl
      · exact absurd hzero (magnitude_ne_zero hbits hea)
    · intro hsign
      exact Or.inl (eq_of_parts ha hb hsign (hea.trans heb.symm)
        (hfa.trans hfb.symm))

end Layout

end Colonnade.Number

namespace Colonnade.Value

open Number

-- ======================================================== cell values

/-- Equality as searching sees it: numbers with a point as numbers, and
everything else as data. -/
def Equal : Value → Value → Prop
  | float x, float y =>
    (Layout.single.decode x.bits.toNat).Equal
      (Layout.single.decode y.bits.toNat)
  | double x, double y =>
    (Layout.double.decode x.bits.toNat).Equal
      (Layout.double.decode y.bits.toNat)
  | v, w => v = w

/-- The comparison of searching decides this equality. -/
theorem equal_iff {v w : Value} : v.equal w = true ↔ v.Equal w := by
  cases v with
  | float x =>
      cases w with
      | float y =>
          exact Layout.equal_iff (by decide) x.bits.toNat_lt y.bits.toNat_lt
      | _ => exact beq_iff_eq
  | double x =>
      cases w with
      | double y =>
          exact Layout.equal_iff (by decide) x.bits.toNat_lt y.bits.toNat_lt
      | _ => exact beq_iff_eq
  | _ => exact beq_iff_eq

/-- Either zero finds the other. -/
example : (double ⟨0x8000000000000000⟩).Equal (double ⟨0⟩) :=
  equal_iff.1 (by decide)

/-- Whether the value is a pattern that stands for no number. -/
def IsNaN : Value → Prop
  | float x => Layout.single.isNaN x.bits.toNat = true
  | double x => Layout.double.isNaN x.bits.toNat = true
  | _ => False

/-- What is no number is found by nothing, itself included. -/
theorem not_equal_of_isNaN {v w : Value} (h : w.IsNaN) : ¬ v.Equal w := by
  have hnan {x : Binary} : ¬ x.Equal .nan := by cases x <;> exact id
  cases w with
  | float y =>
      cases v with
      | float x =>
          show ¬ Binary.Equal _ (Layout.single.decode y.bits.toNat)
          rw [Layout.decode_nan h]
          exact hnan
      | _ => exact nofun
  | double y =>
      cases v with
      | double x =>
          show ¬ Binary.Equal _ (Layout.double.decode y.bits.toNat)
          rw [Layout.decode_nan h]
          exact hnan
      | _ => exact nofun
  | _ => exact h.elim

end Colonnade.Value
