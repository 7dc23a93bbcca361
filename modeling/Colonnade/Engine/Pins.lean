/-
Which versions are still in use. A transaction pins the version it reads;
the current version needs no pin. A version that is neither pinned nor
current is gone: it is counted as reclaimed at the step that took away the
last of the two, either the last unpin of an old version or the move of the
current version away from one that nobody pins.

Chain: part of `Engine`. Each operation here is one indivisible step.
-/
import Colonnade.Key

namespace Colonnade

/-- The current version and how often each version is pinned; a version
that is not pinned has no count. -/
structure Pins where
  current : Version
  counts : Std.TreeMap Version Nat := ∅

namespace Pins

instance : Inhabited Pins := ⟨{ current := .initial }⟩

/-- How often a version is pinned. -/
def count (p : Pins) (v : Version) : Nat := p.counts[v]?.getD 0

/-- Whether a version is pinned. -/
def isPinned (p : Pins) (v : Version) : Bool := p.counts.contains v

/-- Pins a version once more. -/
def pin (p : Pins) (v : Version) : Pins :=
  { p with counts := p.counts.insert v (p.count v + 1) }

/-- Takes one pin of a version away, and says how many versions that
reclaims. -/
def unpin (p : Pins) (v : Version) : Pins × Nat :=
  match p.counts[v]? with
  | none => (p, 0)
  | some n =>
    if n - 1 = 0 then
      ({ p with counts := p.counts.erase v },
        if v = p.current then 0 else 1)
    else ({ p with counts := p.counts.insert v (n - 1) }, 0)

/-- Makes a version the current one, and says how many versions that
reclaims. -/
def setCurrent (p : Pins) (v : Version) : Pins × Nat :=
  ({ p with current := v },
    if p.current = v ∨ p.isPinned p.current then 0 else 1)

/-- The versions in use, ascending. -/
def live (p : Pins) : List Version :=
  (p.counts.insertIfNew p.current 0).keys

/-- The lowest pinned version. -/
def oldest? (p : Pins) : Option Version := p.counts.keys.head?

end Pins

end Colonnade
