/-
Whose it is that an import finds. An import goes by keys, and the keys come
from counters in the snapshot that a writer begins with. So what one writer
has made and never committed has the keys that the next one gives out, and a
handle to it, imported there, comes back as a handle to something else.

What the transaction of the handle has seen settles which change made the
thing that the handle stands for; what the importing transaction has seen
settles which one made the thing that it is shown under the same keys. These
are one change if the importing transaction has seen the first, and
`Told.mem_seen_iff` says when it has: if the change is its own, or was
committed, and not too late for a transaction that was rolled back. For a
transaction that begins after the handle was handed out there is just one
question left, which is whether the writer of that change was committed.

Chain: over `Engine.Annals`, which has what transactions have seen, and
`Engine.Granted`, which has what handles stand for.
-/
import Colonnade.Proofs.Engine.Annals
import Colonnade.Proofs.Engine.Granted

namespace Colonnade.Engine

open Snapshot

variable {e e₀ : Engine} {a b : TransactionId} {t u : Transaction}
  {n : Annals} {c d : Change} {x : Identity}

namespace Told

/-- The writer of what a transaction has seen was there by then. -/
theorem writer_lt_nextId (h : Told n e) (he : e.Serial)
    (ht : e.transaction? a = some t) (hc : c ∈ n.seen a) :
    c.writer.raw < e.nextId.raw := by
  rcases h.mem_seen ht hc with rfl | ⟨hc, -⟩
  · exact he.fresh _ t ht
  · exact h.handedOut c hc

/-- Whether a transaction has seen the change that makes something under the
identity of what it is shown. -/
theorem mem_seen_iff (h : Told n e) (ht : e.transaction? b = some t)
    (hfit : FitCounters (instructions n.committed))
    (hfits : FitCounters (instructions (n.seen b)))
    (hx : t.view.snapshot.Has x) (hmakes : c.made.Makes x)
    (hlasts : c.writer = b → c ∈ n.seen b ∨ c ∈ n.committed) :
    c ∈ n.seen b ↔ c.writer = b ∨ c ∈ n.committed
      ∧ ((∃ holdsSlot, t.role = .writer .rolledBack holdsSlot) →
        c.writer.raw < b.raw) := by
  refine ⟨h.mem_seen ht, fun hc => ?_⟩
  have hthere : c ∈ n.seen b ∨ c ∈ n.committed := by
    rcases hc with hown | ⟨hc, -⟩
    · exact hlasts hown
    · exact .inr hc
  rcases hthere with hseen | hcommitted
  · exact hseen
  cases (h.shown b t ht).2 with
  | shows hrole hpre =>
      -- It is shown what some committed change made, and that is this one.
      obtain ⟨d, hd⟩ := h.origin ht hfits hx
      have hsame : c = d := h.current.sole_origin hfit hcommitted
        (hpre.mem hd.mem) hmakes hd.makes
      exact hsame ▸ hd.mem
  | writes hrole hseen hbefore =>
      rw [hseen]
      exact List.mem_append_left _ hcommitted
  | gaveUp hrole hseen hall hbase hown hlater =>
      rw [hall] at hcommitted
      rcases List.mem_append.1 hcommitted with hbefore | hafter
      · rw [hseen]
        exact List.mem_append_left _ hbefore
      have hlate := hlater c hafter
      rcases hc with rfl | ⟨-, hearly⟩
      · exact absurd hlate (Nat.lt_irrefl _)
      · exact absurd hlate (Nat.lt_asymm (hearly hrole))

/-- Two transactions, the second seen later, and what made the thing that
each of them is shown under one identity. -/
theorem same_origin_iff (h : Told n e) (he : e.Orderly)
    {after : List Event} (htyped : TypedRun e after)
    (ht : e.transaction? a = some t)
    (hu : (e.through after).transaction? b = some u)
    (hfit : FitCounters (instructions (n.through e after).committed))
    (hfits : FitCounters (instructions ((n.through e after).seen b)))
    (hx : u.view.snapshot.Has x) (hc : Origin (n.seen a) x c)
    (hd : Origin ((n.through e after).seen b) x d) :
    (c = d ↔ c.writer = b ∨ c ∈ (n.through e after).committed
        ∧ ((∃ holdsSlot, u.role = .writer .rolledBack holdsSlot) →
          c.writer.raw < b.raw))
      ∧ (e.nextId.raw ≤ b.raw →
        (c = d ↔ c ∈ (n.through e after).committed)) := by
  have hlasts (hown : c.writer = b) : c ∈ (n.through e after).seen b
      ∨ c ∈ (n.through e after).committed := by
    rcases h.mem_seen ht hc.mem with hwriter | ⟨hcommitted, -⟩
    · obtain rfl : a = b := hwriter.symm.trans hown
      exact h.seen_through he htyped ht hu (.inl hc.mem)
    · exact .inr ((committed_through n e after).mem hcommitted)
  have hsame : c = d ↔ c ∈ (n.through e after).seen b :=
    ⟨fun heq => heq ▸ hd.mem, fun hmem => hd.sole c hmem hc.makes⟩
  have hseen := (h.through he htyped).mem_seen_iff hu hfit hfits hx hc.makes
    hlasts
  refine ⟨hsame.trans hseen, fun hlate => ?_⟩
  -- Then the change is earlier than the importing transaction.
  have hearly : c.writer.raw < b.raw :=
    Nat.lt_of_lt_of_le (h.writer_lt_nextId he.serial ht hc.mem) hlate
  rw [hsame, hseen]
  constructor
  · rintro (hown | ⟨hcommitted, -⟩)
    · exact absurd (hown ▸ hearly) (Nat.lt_irrefl _)
    · exact hcommitted
  · exact fun hcommitted => .inr ⟨hcommitted, fun _ => hearly⟩

end Told

/-- Whether an import lands on what its handle is for. The change that made
the one and the change that made the other, each the only one of its kind
that the transaction concerned has seen, are the same exactly if the
importing transaction made it itself or it was committed, and was so before
that transaction began if that one was rolled back. For a transaction that
began after the handle was handed out it comes to whether the change was
committed. All of this holds of the table that an object is in as well, and
of copies of the handle. -/
theorem import_lands_iff {is : List Instruction} {s : Snapshot}
    (hopened : Reached is s) (log : Option HistoryLog) (limits : Limits)
    {before after : List Event} {g h : Handle}
    (hbefore : TypedRun (starting s log limits) before)
    (hgrants : Grants a e₀ g ((starting s log limits).through before))
    (hparts : h.parts ⊆ g.parts)
    (hafter : TypedRun ((starting s log limits).through before) after) :
    let e := (starting s log limits).through before
    let n := (Annals.opening is).through (starting s log limits) before
    let e' := e.through after
    let n' := n.through e after
    FitCounters (instructions (n.seen a)) →
    FitCounters (instructions (n'.seen b)) →
    FitCounters (instructions n'.committed) →
    e'.Finds b h → ∀ x ∈ h.parts, ∃ c d, Origin (n.seen a) x c
      ∧ Origin (n'.seen b) x d
      ∧ (c = d ↔ c.writer = b ∨ c ∈ n'.committed
        ∧ ((∃ t holdsSlot, e'.transaction? b = some t
            ∧ t.role = .writer .rolledBack holdsSlot) →
          c.writer.raw < b.raw))
      ∧ (e.nextId.raw ≤ b.raw → (c = d ↔ c ∈ n'.committed)) := by
  intro e n e' n' hfitThen hfitNow hfitAll hfinds x hx
  have htold : Told n e :=
    (told_starting hopened log limits).through (orderly_starting _ _ _)
      hbefore
  have horderly : e.Orderly := (orderly_starting s log limits).through hbefore
  have htold' : Told n' e' := htold.through horderly hafter
  -- What the handle stood for, and what is found.
  obtain ⟨t, ht, hlives⟩ := hgrants.shows (fun t ht => (htold.shown a t ht).1)
    hfitThen.tables
  obtain ⟨u, hu, hfound⟩ := finds_iff.1 hfinds
  have hhas := hfound.has hx
  obtain ⟨c, hc⟩ := htold.origin ht hfitThen (hlives.has (hparts hx))
  obtain ⟨d, hd⟩ := htold'.origin hu hfitNow hhas
  have hrole : (∃ t holdsSlot, e'.transaction? b = some t
        ∧ t.role = .writer .rolledBack holdsSlot)
      ↔ ∃ holdsSlot, u.role = .writer .rolledBack holdsSlot := by
    constructor
    · rintro ⟨u', holdsSlot, hu', hrole⟩
      obtain rfl := Option.some.inj (hu.symm.trans hu')
      exact ⟨holdsSlot, hrole⟩
    · rintro ⟨holdsSlot, hrole⟩
      exact ⟨u, holdsSlot, hu, hrole⟩
  rw [hrole]
  exact ⟨c, d, hc, hd, htold.same_origin_iff horderly hafter ht hu hfitAll
    hfitNow hhas hc hd⟩

/-- Few changes do not exhaust the counters. -/
theorem fitCounters_of_length {l : List Change} (h : l.length < 2 ^ 31) :
    FitCounters (instructions l) := by
  have hfew (p : Instruction → Bool) :
      (instructions l).countP p < 2 ^ 31 := by
    refine Nat.lt_of_le_of_lt List.countP_le_length ?_
    rwa [instructions, List.length_map]
  refine ⟨?_, fun k => ?_, fun k => ?_⟩ <;>
    exact Nat.lt_trans (hfew _) (by decide)

theorem origin_singleton (hmakes : c.made.Makes x) : Origin [c] x c :=
  ⟨.head _, hmakes, fun _ hd _ => List.mem_singleton.1 hd⟩

/-- A writer that adds a table and looks it up. -/
def addsOne : List Event :=
  [.call .beginWrite, .call (.addTable ⟨1⟩ "a")]

/-- The handle that it gets. -/
def firstTable : TableHandle := ⟨⟨⟨1⟩, 0⟩, ⟨0⟩⟩

/-- It commits, and a reader begins. -/
def commitsOne : List Event := [.call (.commit ⟨1⟩), .call .beginRead]

/-- It gives up instead, and the next writer adds a table. -/
def givesUpOne : List Event :=
  [.call (.rollback ⟨1⟩), .call .beginWrite, .call (.addTable ⟨2⟩ "b")]

/-- What the reader finds is the table that was added. -/
theorem import_lands_iff_commitsOne :
    let e := (inMemory {}).through addsOne
    let n := (Annals.opening []).through (inMemory {}) addsOne
    (e.through commitsOne).Finds ⟨2⟩ (.table firstTable)
      ∧ ∃ c, Origin (n.seen ⟨1⟩) (.table ⟨0⟩) c
        ∧ Origin ((n.through e commitsOne).seen ⟨2⟩) (.table ⟨0⟩) c := by
  intro e n
  have hgrants : Grants ⟨1⟩ e (.table firstTable) e := by
    refine @Grants.table? _ _ "a" _ ?_
    decide +kernel
  have hfinds : (e.through commitsOne).Finds ⟨2⟩ (.table firstTable) := by
    refine ⟨⟨⟨⟨2⟩, 0⟩, ⟨0⟩⟩, ?_⟩
    decide +kernel
  have hthen : (n.seen ⟨1⟩).length < 2 ^ 31 := by decide +kernel
  have hnow : ((n.through e commitsOne).seen ⟨2⟩).length < 2 ^ 31 := by
    decide +kernel
  have hall : (n.through e commitsOne).committed.length < 2 ^ 31 := by
    decide +kernel
  have hlate : e.nextId.raw ≤ 2 := by decide +kernel
  have hbefore : TypedRun (inMemory {}) addsOne := ⟨trivial, trivial, trivial⟩
  have hafter : TypedRun e commitsOne := ⟨trivial, trivial, trivial⟩
  obtain ⟨c, d, hc, hd, -, hlands⟩ := import_lands_iff (b := ⟨2⟩)
    .empty none _ hbefore hgrants (List.Subset.refl _) hafter
    (fitCounters_of_length hthen) (fitCounters_of_length hnow)
    (fitCounters_of_length hall) hfinds (.table ⟨0⟩) (.head _)
  have hseen : n.seen ⟨1⟩ ⊆ (n.through e commitsOne).committed := by
    decide +kernel
  obtain rfl := (hlands hlate).2 (hseen hc.mem)
  exact ⟨hfinds, c, hc, hd⟩

/-- What the next writer finds is its own table, and not the one that the
handle was for, which it has never seen. -/
theorem import_after_rollback_finds_another :
    let e := (inMemory {}).through addsOne
    let n := (Annals.opening []).through (inMemory {}) addsOne
    let n' := n.through e givesUpOne
    Grants ⟨1⟩ e (.table firstTable) e
      ∧ (e.through givesUpOne).Finds ⟨2⟩ (.table firstTable)
      ∧ ∃ c d, Origin (n.seen ⟨1⟩) (.table ⟨0⟩) c
        ∧ Origin (n'.seen ⟨2⟩) (.table ⟨0⟩) d ∧ c ∉ n'.seen ⟨2⟩
        ∧ c.made = .addTable ⟨0⟩ "a" ∧ d.made = .addTable ⟨0⟩ "b" := by
  intro e n n'
  have hthen : n.seen ⟨1⟩ = [⟨⟨1⟩, 0, .addTable ⟨0⟩ "a"⟩] := by
    decide +kernel
  have hnow : n'.seen ⟨2⟩ = [⟨⟨2⟩, 0, .addTable ⟨0⟩ "b"⟩] := by
    decide +kernel
  rw [hthen, hnow]
  refine ⟨@Grants.table? _ _ "a" _ ?_, ⟨⟨⟨⟨2⟩, 0⟩, ⟨0⟩⟩, ?_⟩,
    _, _, origin_singleton ⟨_, rfl, rfl⟩, origin_singleton ⟨_, rfl, rfl⟩,
    by decide, rfl, rfl⟩
  · decide +kernel
  · decide +kernel

end Colonnade.Engine
