/-
Where what is there comes from. Of the instructions that lead to a snapshot,
each thing that is there was made by one, and no two make something under
one identity: what an instruction makes has a key that was not spent, and
afterwards it is spent for good.

So the instructions that a transaction has seen settle which instruction a
handle stands for. Two transactions that have seen different instructions
may each have one for the same key.

Chain: `Snapshot.Identity` says the same of a sequence of snapshots;
`Engine.Imports` compares the instructions of two transactions.
-/
import Colonnade.Proofs.Snapshot.Identity
import Mathlib.Data.List.Pairwise

namespace Colonnade

/-- Whether an instruction makes a thing under an identity. -/
def Instruction.Makes (i : Instruction) (id : Identity) : Prop :=
  ∃ x, i.makes? = some x ∧ x.id = id

namespace Snapshot

variable {is : List Instruction} {s : Snapshot} {i : Instruction}
  {id : Identity}

/-- What an instruction has made has a spent key. -/
theorem Reached.spent_of_makes (h : Reached is s) (hfit : FitCounters is)
    (hi : i ∈ is) (hmakes : i.Makes id) : s.Spent id := by
  induction h with
  | empty => cases hi
  | @step is s s' limits j hbefore happ ih =>
      have happ := apply_gives_iff.1 happ
      have hkeyed := hbefore.keyed hfit.before
      rcases List.mem_append.1 hi with hi | hi
      · exact happ.spent hkeyed (hfit.hasRoom hbefore.countersWithin)
          (ih hfit.before hi)
      · obtain rfl := List.mem_singleton.1 hi
        obtain ⟨x, hx, rfl⟩ := hmakes
        have hafter := (hbefore.step (apply_gives_iff.2 happ)).keyed hfit
        exact hafter.spent_of_holds (happ.made hkeyed hx).2
  | renumber _ version ih => exact ih hfit hi

/-- Whether two instructions make no two things under one identity. -/
def MakeApart (i j : Instruction) : Prop :=
  ∀ id, i.Makes id → ¬ j.Makes id

/-- No two instructions make something under one identity. -/
theorem Reached.makeApart (h : Reached is s) (hfit : FitCounters is) :
    is.Pairwise MakeApart := by
  induction h with
  | empty => exact .nil
  | @step is s s' limits j hbefore happ ih =>
      refine List.pairwise_append.2 ⟨ih hfit.before,
        List.pairwise_singleton _ _, fun i hi j' hj id hmakes hmakes' => ?_⟩
      obtain rfl := List.mem_singleton.1 hj
      obtain ⟨x, hx, rfl⟩ := hmakes'
      have hspent := hbefore.spent_of_makes hfit.before hi hmakes
      exact ((apply_gives_iff.1 happ).made (hbefore.keyed hfit.before) hx).1
        hspent
  | renumber _ version ih => exact ih hfit

/-- What is there was made. -/
theorem Reached.made_of_holds (h : Reached is s) (hfit : FitCounters is)
    {x : Entity} (hx : s.Holds x) : ∃ i ∈ is, i.makes? = some x := by
  induction h with
  | empty =>
      cases x with
      | table | column | object =>
          obtain ⟨t, ht, -⟩ := hx
          simp at ht
  | @step is s s' limits j hbefore happ ih =>
      have hkeyed := hbefore.keyed hfit.before
      rcases (apply_gives_iff.1 happ).holds_before hkeyed hx with hold | hnew
      · obtain ⟨i, hi, hmakes⟩ := ih hfit.before hold
        exact ⟨i, List.mem_append_left _ hi, hmakes⟩
      · exact ⟨j, List.mem_append_right _ (List.mem_singleton_self j), hnew⟩
  | renumber _ version ih => exact ih hfit (by cases x <;> exact hx)

end Snapshot

end Colonnade
