/-
What the operations on pins do to what is pinned, to what is in use and to
the number of versions in use.

How often each version is pinned is given from outside, by a function: `Pins`
that have `Counts h` have the count `h v` for each version that `h` does not
take to 0, and no entry for the others. So nobody has to know how a count of
one comes to be erased.

A version that is reclaimed is one that is no longer in use. `unpin_total` and
`setCurrent_total` say so by their numbers: what is counted as reclaimed is
what the list of versions in use has lost, and for a version that becomes
current it is what the list has lost next to the one that it has gained.
Which versions they are is said by `lapsed` and `superseded`, and `Gone` that
they stay out of use.

Chain: `Engine.Accounts` has the transactions that take and leave the pins,
and `Engine.Handover` asks whether a version can be taken up again.
-/
import Colonnade.Engine.Pins
import Colonnade.Proofs.OrderedMap
import Mathlib.Algebra.Group.Nat.Defs

namespace Colonnade

/-- Of the versions numbered from a first one, the next is new, unless
numbers have come round. -/
theorem Version.next_ne_of_few {base u v : Version} {n k : Nat}
    (hu : u.raw = base.raw + UInt64.ofNat n)
    (hv : v.raw = base.raw + UInt64.ofNat k) (hk : k ≤ n)
    (hfew : n + 1 < 2 ^ 64) : u.next ≠ v := by
  intro heq
  have hraw : base.raw + UInt64.ofNat (n + 1)
      = base.raw + UInt64.ofNat k := by
    rw [← hv, ← heq, UInt64.ofNat_add, ← UInt64.add_assoc, ← hu]
    rfl
  have hnat := congrArg UInt64.toNat ((UInt64.add_right_inj _).1 hraw)
  rw [UInt64.toNat_ofNat', UInt64.toNat_ofNat', Nat.mod_eq_of_lt hfew,
    Nat.mod_eq_of_lt (by omega)] at hnat
  omega

namespace Pins

variable {p : Pins} {v w : Version} {h h' : Version → Nat}

-- ======================================================== taking a pin off

/-- Unpinning does nothing, counts one pin less, or takes the version off. -/
theorem unpin_cases (p : Pins) (v : Version) :
    p.unpin v = (p, 0)
      ∨ v ∈ p.counts
        ∧ ((∃ n, p.unpin v = ({ p with counts := p.counts.insert v n }, 0))
          ∨ p.unpin v = ({ p with counts := p.counts.erase v },
              if v = p.current then 0 else 1)) := by
  unfold Pins.unpin
  cases hfound : p.counts[v]? with
  | none => exact .inl rfl
  | some n =>
      have hmem : v ∈ p.counts := by
        rw [Std.TreeMap.mem_iff_isSome_getElem?, hfound]
        rfl
      refine .inr ⟨hmem, ?_⟩
      dsimp only
      split
      next => exact .inr rfl
      next => exact .inl ⟨n - 1, rfl⟩

theorem unpin_current (p : Pins) (v : Version) :
    (p.unpin v).1.current = p.current := by
  rcases p.unpin_cases v with heq | ⟨-, ⟨n, heq⟩ | heq⟩ <;> rw [heq]

-- =========================================================== the counts

/-- Each version has the count that is given, and none instead of 0. -/
def Counts (p : Pins) (h : Version → Nat) : Prop :=
  ∀ v : Version, p.counts[v]? = if h v = 0 then none else some (h v)

/-- A version is pinned as often as it is held. -/
theorem Counts.count_eq (hp : p.Counts h) (v : Version) : p.count v = h v := by
  unfold count
  rw [hp v]
  split
  next hzero => exact hzero.symm
  next => rfl

/-- There is a count for the versions that are held. -/
theorem Counts.mem_iff (hp : p.Counts h) : v ∈ p.counts ↔ 0 < h v := by
  rw [Std.TreeMap.mem_iff_isSome_getElem?, hp v]
  split
  next hzero => simp [hzero]
  next hne => simp [Nat.pos_of_ne_zero hne]

theorem counts_empty (current : Version) :
    Counts { current } fun _ => 0 :=
  fun _ => Std.TreeMap.getElem?_emptyc

/-- A pin is counted. -/
theorem Counts.pin (hp : p.Counts h)
    (hpinned : ∀ w, h' w = h w + if v = w then 1 else 0) :
    (p.pin v).Counts h' := by
  intro w
  show (p.counts.insert v (p.count v + 1))[w]? = _
  rw [OrderedMap.getElem?_insert, hp.count_eq, hpinned w]
  by_cases heq : v = w
  · subst heq
    rw [if_pos rfl, if_pos rfl, if_neg (Nat.succ_ne_zero _)]
  · rw [if_neg (Ne.symm heq), if_neg heq]
    exact hp w

/-- A pin that is taken away is no longer counted. -/
theorem Counts.unpin (hp : p.Counts h)
    (hunpinned : ∀ w, h' w + (if v = w then 1 else 0) = h w) :
    (p.unpin v).1.Counts h' := by
  have hv : h' v + 1 = h v := by
    rw [← hunpinned v, if_pos rfl]
  have hother {w : Version} (hw : w ≠ v) : h' w = h w := by
    rw [← hunpinned w, if_neg (Ne.symm hw)]
    rfl
  have hfound : p.counts[v]? = some (h v) := by
    rw [hp v, if_neg (by omega)]
  intro w
  unfold Pins.unpin
  rw [hfound]
  dsimp only
  by_cases hlast : h v - 1 = 0
  · rw [if_pos hlast]
    dsimp only
    rw [OrderedMap.getElem?_erase]
    by_cases heq : w = v
    · subst heq
      rw [if_pos rfl, if_pos (by omega)]
    · rw [if_neg heq, hother heq]
      exact hp w
  · rw [if_neg hlast]
    dsimp only
    rw [OrderedMap.getElem?_insert]
    by_cases heq : w = v
    · subst heq
      rw [if_pos rfl, if_neg (by omega), ← hv, Nat.add_sub_cancel]
    · rw [if_neg heq, hother heq]
      exact hp w

theorem Counts.setCurrent (hp : p.Counts h) (v : Version) :
    (p.setCurrent v).1.Counts h := hp

-- =================================================== what is in use

/-- Live are the current version and those that are pinned. -/
theorem mem_live : v ∈ p.live ↔ v = p.current ∨ v ∈ p.counts := by
  unfold live
  rw [Std.TreeMap.mem_keys, Std.TreeMap.mem_insertIfNew,
    Std.LawfulEqCmp.compare_eq_iff_eq]
  exact or_congr_left eq_comm

/-- What is in use is listed in order, and nothing twice. -/
theorem live_ascending (p : Pins) :
    p.live.Pairwise fun v w => v.raw < w.raw := by
  have hkeys : p.live.Pairwise fun v w => compare v w = .lt :=
    Std.TreeMap.ordered_keys
  exact hkeys.imp fun {v w} hlt =>
    Std.compare_eq_lt.1 (show compare v.raw w.raw = .lt from hlt)

theorem live_nodup (p : Pins) : p.live.Nodup := Std.TreeMap.nodup_keys

/-- There are as many live versions as counts, and one more if nobody holds
the current one. -/
theorem live_length (p : Pins) :
    p.live.length
      = p.counts.size + if p.current ∈ p.counts then 0 else 1 := by
  unfold live
  rw [Std.TreeMap.length_keys, Std.TreeMap.size_insertIfNew]
  split <;> rfl

/-- The oldest pin is the least version that is pinned. -/
theorem oldest?_eq_some :
    p.oldest? = some v ↔ v ∈ p.counts ∧ ∀ w ∈ p.counts, v.raw ≤ w.raw := by
  have hle (w : Version) : (compare v w).isLE ↔ v.raw ≤ w.raw :=
    Std.LawfulOrderOrd.isLE_compare v.raw w.raw
  unfold oldest?
  rw [← Std.TreeMap.minKey?_eq_head?_keys,
    Std.TreeMap.minKey?_eq_some_iff_mem_and_forall]
  simp only [hle]

/-- There is no oldest pin where there is no pin. -/
theorem oldest?_eq_none : p.oldest? = none ↔ ∀ v, v ∉ p.counts := by
  unfold oldest?
  rw [List.head?_eq_none_iff, List.eq_nil_iff_forall_not_mem]
  simp only [Std.TreeMap.mem_keys]

-- ================================================= what goes out of use

/-- Behind a pin its version is live. -/
theorem mem_live_pin : w ∈ (p.pin v).live ↔ w = v ∨ w ∈ p.live := by
  rw [mem_live, mem_live]
  show w = p.current ∨ w ∈ p.counts.insert v _ ↔ _
  rw [OrderedMap.mem_insert, or_left_comm]

/-- Pinning what is in use brings nothing into use. -/
theorem pin_total (hv : v ∈ p.live) :
    (p.pin v).live.length = p.live.length := by
  rw [live_length, live_length]
  show (p.counts.insert v _).size
    + (if p.current ∈ p.counts.insert v _ then 0 else 1) = _
  simp only [OrderedMap.mem_insert]
  by_cases hmem : v ∈ p.counts
  · have hcurrent : p.current = v → p.current ∈ p.counts := fun heq =>
      heq ▸ hmem
    rw [OrderedMap.size_insert_of_mem hmem]
    simp only [or_iff_right_of_imp hcurrent]
  · obtain rfl := (mem_live.1 hv).resolve_right hmem
    rw [OrderedMap.size_insert_of_notMem hmem, if_neg hmem,
      if_pos (.inl rfl)]

/-- Giving up a pin makes no version live. -/
theorem mem_live_of_unpin (hw : w ∈ (p.unpin v).1.live) : w ∈ p.live := by
  rw [mem_live] at hw ⊢
  rcases p.unpin_cases v with heq | ⟨hmem, ⟨n, heq⟩ | heq⟩ <;> rw [heq] at hw
  · exact hw
  · refine hw.imp_right fun hw => ?_
    exact (OrderedMap.mem_insert.1 hw).elim (fun heq => heq ▸ hmem) id
  · exact hw.imp_right fun hw => (OrderedMap.mem_erase.1 hw).2

/-- What unpinning reclaims is what goes out of use. -/
theorem unpin_total (p : Pins) (v : Version) :
    (p.unpin v).2 + (p.unpin v).1.live.length = p.live.length := by
  rw [live_length, live_length]
  rcases p.unpin_cases v with heq | ⟨hmem, ⟨n, heq⟩ | heq⟩ <;> rw [heq]
  · exact Nat.zero_add _
  · have hcurrent : p.current = v → p.current ∈ p.counts := fun heq =>
      heq ▸ hmem
    dsimp only
    rw [OrderedMap.size_insert_of_mem hmem, Nat.zero_add]
    simp only [OrderedMap.mem_insert, or_iff_right_of_imp hcurrent]
  · have hsize := OrderedMap.size_erase_of_mem hmem
    dsimp only
    simp only [OrderedMap.mem_erase]
    by_cases heq : p.current = v
    · rw [if_pos heq.symm, if_neg fun h => h.1 heq, if_pos (heq ▸ hmem)]
      omega
    · rw [if_neg (Ne.symm heq)]
      simp only [ne_eq, heq, not_false_eq_true, true_and]
      omega

/-- Only the new current version comes to be live. -/
theorem mem_live_of_setCurrent (hw : w ∈ (p.setCurrent v).1.live) :
    w = v ∨ w ∈ p.live := by
  rw [mem_live] at hw ⊢
  exact hw.imp_right .inr

/-- A version that becomes current comes into use, and what that reclaims is
what goes out of use. -/
theorem setCurrent_total (hv : v ∉ p.live) :
    (p.setCurrent v).2 + (p.setCurrent v).1.live.length
      = p.live.length + 1 := by
  rw [mem_live, not_or] at hv
  obtain ⟨hne, hnone⟩ := hv
  rw [live_length, live_length]
  show (if p.current = v ∨ p.counts.contains p.current then 0 else 1)
    + (p.counts.size + if v ∈ p.counts then 0 else 1) = _
  simp only [if_neg hnone, or_iff_right (Ne.symm hne),
    Std.TreeMap.contains_iff_mem]
  omega

-- ================================================== which ones are gone

/-- The versions that taking a pin away reclaims. -/
def lapsed (p : Pins) (v : Version) : List Version :=
  List.replicate (p.unpin v).2 v

/-- The versions that are reclaimed as another becomes current. -/
def superseded (p : Pins) (v : Version) : List Version :=
  List.replicate (p.setCurrent v).2 p.current

section Gone

variable {gone : List Version}

/-- Taking a pin away reclaims nothing, or the version that it was on, which
goes out of use. -/
theorem lapsed_cases (p : Pins) (v : Version) :
    p.lapsed v = []
      ∨ p.lapsed v = [v] ∧ v ∈ p.live ∧ v ∉ (p.unpin v).1.live := by
  unfold lapsed
  rcases p.unpin_cases v with heq | ⟨hmem, ⟨n, heq⟩ | heq⟩
  · exact .inl (by rw [heq]; rfl)
  · exact .inl (by rw [heq]; rfl)
  · rw [heq]
    dsimp only
    split
    next => exact .inl rfl
    next hne =>
      refine .inr ⟨rfl, mem_live.2 (.inr hmem), fun hlive => ?_⟩
      rcases mem_live.1 hlive with hcurrent | hmem'
      · exact hne hcurrent
      · exact (OrderedMap.mem_erase.1 hmem').1 rfl

/-- A version that becomes current reclaims nothing, or the one that was,
which goes out of use. -/
theorem superseded_cases (p : Pins) (v : Version) :
    p.superseded v = []
      ∨ p.superseded v = [p.current]
        ∧ p.current ∉ (p.setCurrent v).1.live := by
  unfold superseded setCurrent
  dsimp only
  split
  next => exact .inl rfl
  next hlost =>
    refine .inr ⟨rfl, fun hlive => hlost ?_⟩
    exact (mem_live.1 hlive).imp_right Std.TreeMap.contains_iff_mem.2

/-- What lapses with a pin was live. -/
theorem mem_live_of_lapsed (hw : w ∈ p.lapsed v) : w ∈ p.live := by
  rcases p.lapsed_cases v with heq | ⟨heq, hv, -⟩ <;> rw [heq] at hw
  · exact absurd hw List.not_mem_nil
  · exact List.mem_singleton.1 hw ▸ hv

/-- What is superseded was live. -/
theorem mem_live_of_superseded (hw : w ∈ p.superseded v) : w ∈ p.live := by
  rcases p.superseded_cases v with heq | ⟨heq, -⟩ <;> rw [heq] at hw
  · exact absurd hw List.not_mem_nil
  · exact mem_live.2 (.inl (List.mem_singleton.1 hw))

/-- Behind a pin that is given up every version is live still, or lapsed. -/
theorem mem_live_or_lapsed (p : Pins) (v : Version) (hw : w ∈ p.live) :
    w ∈ (p.unpin v).1.live ∨ w ∈ p.lapsed v := by
  unfold lapsed
  rcases p.unpin_cases v with heq | ⟨-, ⟨n, heq⟩ | heq⟩ <;> rw [heq]
  · exact .inl hw
  · refine .inl (mem_live.2 ((mem_live.1 hw).imp_right fun hmem => ?_))
    exact OrderedMap.mem_insert.2 (.inr hmem)
  · rcases mem_live.1 hw with hcurrent | hmem
    · exact .inl (mem_live.2 (.inl hcurrent))
    · dsimp only
      split
      next heq =>
        refine .inl (mem_live.2 ?_)
        by_cases hwv : w = v
        · exact .inl (hwv.trans heq)
        · exact .inr (OrderedMap.mem_erase.2 ⟨hwv, hmem⟩)
      next =>
        by_cases hwv : w = v
        · exact .inr (List.mem_singleton.2 hwv)
        · exact .inl (mem_live.2 (.inr (OrderedMap.mem_erase.2 ⟨hwv, hmem⟩)))

/-- Behind a new current version every other one is live still, or superseded.
-/
theorem mem_live_or_superseded (p : Pins) (v : Version) (hw : w ∈ p.live) :
    w ∈ (p.setCurrent v).1.live ∨ w ∈ p.superseded v := by
  unfold superseded setCurrent
  rcases mem_live.1 hw with rfl | hmem
  · dsimp only
    split
    next hkept =>
      exact .inl (mem_live.2 (hkept.imp_right Std.TreeMap.contains_iff_mem.1))
    next => exact .inr (List.mem_singleton.2 rfl)
  · exact .inl (mem_live.2 (.inr hmem))

/-- Pinning a live version makes no other one live. -/
theorem mem_live_of_pin (hv : v ∈ p.live) (hw : w ∈ (p.pin v).live) :
    w ∈ p.live := (mem_live_pin.1 hw).elim (fun heq => heq ▸ hv) id

/-- These versions are out of use, and none is listed twice. -/
structure Gone (p : Pins) (gone : List Version) : Prop where
  nodup : gone.Nodup
  notMem : ∀ v ∈ gone, v ∉ p.live

/-- One more version may be listed when it goes out of use. -/
theorem Gone.one_more (h : p.Gone gone) {p' : Pins}
    (hlive : ∀ w ∈ p'.live, w ∈ p.live ∨ w ∉ gone) (hv : v ∈ p.live)
    (hv' : v ∉ p'.live) : p'.Gone (gone ++ [v]) where
  nodup := by
    refine List.nodup_append.2 ⟨h.nodup, List.pairwise_singleton _ v, ?_⟩
    rintro a ha b hb rfl
    exact h.notMem a ha (List.mem_singleton.1 hb ▸ hv)
  notMem w hw hwlive := by
    rcases List.mem_append.1 hw with hw | hw
    · exact (hlive w hwlive).elim (h.notMem w hw) fun hnot => hnot hw
    · exact hv' (List.mem_singleton.1 hw ▸ hwlive)

/-- What is gone stays gone while nothing of it comes to be live. -/
theorem Gone.mono (h : p.Gone gone) {p' : Pins}
    (hlive : ∀ w ∈ p'.live, w ∈ p.live ∨ w ∉ gone) : p'.Gone gone where
  nodup := h.nodup
  notMem w hw hwlive :=
    (hlive w hwlive).elim (h.notMem w hw) fun hnot => hnot hw

/-- Pinning what is in use brings nothing back. -/
theorem Gone.pin (h : p.Gone gone) (hv : v ∈ p.live) :
    (p.pin v).Gone gone :=
  h.mono fun _ hw => .inl (mem_live_of_pin hv hw)

/-- What lapses with a pin is gone from then on. -/
theorem Gone.unpin (h : p.Gone gone) (v : Version) :
    (p.unpin v).1.Gone (gone ++ p.lapsed v) := by
  have hlive (w : Version) (hw : w ∈ (p.unpin v).1.live) :
      w ∈ p.live ∨ w ∉ gone := .inl (mem_live_of_unpin hw)
  rcases p.lapsed_cases v with heq | ⟨heq, hv, hv'⟩ <;> rw [heq]
  · rw [List.append_nil]
    exact h.mono hlive
  · exact h.one_more hlive hv hv'

/-- What becomes current must not be gone already. -/
theorem Gone.setCurrent (h : p.Gone gone) (hv : v ∉ gone) :
    (p.setCurrent v).1.Gone (gone ++ p.superseded v) := by
  have hlive (w : Version) (hw : w ∈ (p.setCurrent v).1.live) :
      w ∈ p.live ∨ w ∉ gone :=
    (mem_live_of_setCurrent hw).elim (fun heq => .inr (heq ▸ hv)) .inl
  rcases p.superseded_cases v with heq | ⟨heq, hcurrent⟩ <;> rw [heq]
  · rw [List.append_nil]
    exact h.mono hlive
  · exact h.one_more hlive (mem_live.2 (.inl rfl)) hcurrent

end Gone

end Pins

end Colonnade
