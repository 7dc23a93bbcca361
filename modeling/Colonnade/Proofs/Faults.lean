/-
What a fault switch lets through. A switch that is set to fail appends after
some more bytes lets exactly those bytes through, in the order in which they
are appended, and no others: the append that would pass the limit goes in up
to it and fails, and so does every append after it, however short.

All that the calls up to some point come to is told from what they were asked
to append, laid end to end (`appended`). The store holds the first of it, as
far as the limit, and the switch has counted as much (`Faults.spent`). One
step keeps both, so a run is that step over and over, from the end.

Calls that add nothing may come between the appends. Reading and asking for
the size change nothing at all; flushing and syncing fail if they are set to,
which trips the switch like a refused append.

Chain: over the calls of `Host.Filed`; `History.Acknowledged` has logs lie
over memory behind such a switch.
-/
import Colonnade.Proofs.Host.Filed

namespace Colonnade

-- =============================================================== calls

namespace StoreCall

/-- What a call asks to have appended. -/
def data : StoreCall → Bytes
  | append data => data
  | _ => []

/-- Whether a call takes nothing away, and adds something if it appends. -/
def Adds : StoreCall → Prop
  | append data => data ≠ []
  | truncate _ => False
  | _ => True

/-- Whether a call sees to it that what was appended is kept. -/
def settles : StoreCall → Bool
  | flush | sync => true
  | _ => false

end StoreCall

/-- What calls ask to have appended, laid end to end. -/
def appended (calls : List StoreCall) : Bytes := calls.flatMap StoreCall.data

@[simp]
theorem appended_append (calls others : List StoreCall) :
    appended (calls ++ others) = appended calls ++ appended others :=
  List.flatMap_append

@[simp]
theorem appended_singleton (c : StoreCall) : appended [c] = c.data :=
  List.append_nil _

theorem Store.through_cons (s : Store) (c : StoreCall)
    (calls : List StoreCall) :
    s.through (c :: calls)
      = ((c.on s).1 :: ((c.on s).2.through calls).1,
        ((c.on s).2.through calls).2) := rfl

/-- Calls after others are answered by the store that the others leave. -/
theorem Store.through_append (s : Store) (calls others : List StoreCall) :
    s.through (calls ++ others)
      = ((s.through calls).1 ++ ((s.through calls).2.through others).1,
        ((s.through calls).2.through others).2) := by
  induction calls generalizing s with
  | nil => rfl
  | cons first calls ih =>
      rw [List.cons_append, through_cons, through_cons, ih]
      rfl

/-- There is one answer to each call. -/
theorem Store.length_through (s : Store) (calls : List StoreCall) :
    (s.through calls).1.length = calls.length := by
  induction calls generalizing s with
  | nil => rfl
  | cons first calls ih => exact congrArg (· + 1) (ih _)

-- ========================================================== the switch

namespace Faults

/-- The switch that was set to let some more bytes through, after calls: it
has counted what was let through, and tripped if more was to be appended or
settling was made to fail. -/
def spent (f : Faults) (n : Nat) (calls : List StoreCall) : Faults where
  limit := f.written + n
  written := f.written + min n (appended calls).length
  failFlush := f.failFlush
  tripped := f.tripped || decide (n < (appended calls).length)
    || (f.failFlush && calls.any StoreCall.settles)

variable {f : Faults} {n : Nat} {calls : List StoreCall}

/-- Nothing is spent when it was only just set. -/
theorem failAppendsAfter_eq_spent (hlimit : f.written + n < maxSize) :
    f.failAppendsAfter n = f.spent n [] := by
  unfold failAppendsAfter spent addSizes
  simp [appended, Nat.min_eq_left (Nat.le_of_lt hlimit)]

/-- What still goes through is what has not been asked for yet. -/
theorem room_spent :
    (f.spent n calls).room = n - (appended calls).length := by
  show f.written + n - (f.written + min n (appended calls).length) = _
  omega

/-- Something is refused that goes beyond what still goes through. -/
theorem refuses_spent (hlimit : f.written + n < maxSize) {length : Nat}
    (hlength : 0 < length) :
    (f.spent n calls).refuses length
      = decide (n < (appended calls).length + length) := by
  unfold refuses addSizes
  refine decide_eq_decide.2 ?_
  show f.written + n
      < min (f.written + min n (appended calls).length + length) maxSize ↔ _
  omega

/-- A call that appends nothing and settles nothing leaves the switch as it
was. -/
theorem spent_concat {c : StoreCall} (hdata : c.data = [])
    (hsettles : c.settles = false) :
    f.spent n (calls ++ [c]) = f.spent n calls := by
  simp [spent, hdata, hsettles]

/-- The same of a call that settles, where settling is not made to fail. -/
theorem spent_settled {c : StoreCall} (hdata : c.data = [])
    (hflush : f.failFlush = false) :
    f.spent n (calls ++ [c]) = f.spent n calls := by
  simp [spent, hdata, hflush]

/-- Where settling is made to fail it trips the switch. -/
theorem spent_tripped {c : StoreCall} (hdata : c.data = [])
    (hsettles : c.settles = true) (hflush : f.failFlush = true) :
    f.spent n (calls ++ [c]) = (f.spent n calls).trip := by
  simp [spent, trip, hdata, hsettles, hflush]

/-- An append within the limit is counted. -/
theorem spent_wrote {data : Bytes}
    (hfits : (appended calls).length + data.length ≤ n) :
    f.spent n (calls ++ [.append data])
      = (f.spent n calls).wrote data.length := by
  have hbefore : ¬ n < (appended calls).length := by omega
  have hafter : ¬ n < (appended calls).length + data.length := by omega
  have hwritten : f.written + min n ((appended calls).length + data.length)
      = f.written + min n (appended calls).length + data.length := by omega
  simp [spent, wrote, StoreCall.data, StoreCall.settles, hbefore, hafter,
    hwritten]

/-- An append beyond the limit uses up what was left, and trips the
switch. -/
theorem spent_refused {data : Bytes}
    (hbeyond : n < (appended calls).length + data.length) :
    f.spent n (calls ++ [.append data])
      = ((f.spent n calls).wrote (f.spent n calls).room).trip := by
  have hwritten : f.written + min n ((appended calls).length + data.length)
      = f.written + min n (appended calls).length
        + (n - (appended calls).length) := by omega
  rw [room_spent]
  simp [spent, wrote, trip, StoreCall.data, hbeyond, hwritten]

end Faults

-- ============================================================ one call

namespace Store

variable {d : Bytes} {f : Faults} {n : Nat} {calls : List StoreCall}

/-- Memory behind the switch, after calls. -/
def behind (d : Bytes) (f : Faults) (n : Nat) (calls : List StoreCall) :
    Store :=
  .faulty (.memory (d ++ (appended calls).take n)) (f.spent n calls)

/-- Where the switch was only just set. -/
theorem armed_eq_behind (hlimit : f.written + n < maxSize) :
    faulty (memory d) (f.failAppendsAfter n) = behind d f n [] := by
  unfold behind
  rw [Faults.failAppendsAfter_eq_spent hlimit]
  simp [appended]

/-- What an append is answered after calls: it succeeds if all that was
appended so far and this are within the limit. -/
def appendAnswer (d : Bytes) (f : Faults) (n : Nat)
    (calls : List StoreCall) (data : Bytes) :
    Except StoreFault StoreAnswer :=
  if (appended calls).length + data.length ≤ n then
    .ok (.appendedAt (behind d f n calls).size)
  else .error (.injected "append")

/-- An append is refused where it goes beyond what is let through. -/
theorem appendAnswer_eq_error {data : Bytes} :
    appendAnswer d f n calls data = .error (.injected "append")
      ↔ n < (appended calls).length + data.length := by
  unfold appendAnswer
  split
  next hfits => exact iff_of_false nofun (by omega)
  next hbeyond => exact iff_of_true rfl (by omega)

/-- A switch in front of memory lets an append through, or of one that it
refuses as much as there is room for. -/
theorem append_faulty (bytes : Bytes) (f : Faults) (data : Bytes) :
    (faulty (memory bytes) f).append data
      = if f.refuses data.length then
          .error (.injected "append") (faulty (memory
            (bytes ++ data.take f.room)) (f.wrote f.room).trip)
        else
          .ok bytes.length
            (faulty (memory (bytes ++ data)) (f.wrote data.length)) := by
  unfold Store.append
  by_cases hroom : f.room = 0
  · rw [if_pos hroom, hroom, List.take_zero, List.append_nil]
    rfl
  · rw [if_neg hroom]
    rfl

/-- An append is answered so, and counted. -/
theorem append_behind (hlimit : f.written + n < maxSize) {data : Bytes}
    (hdata : data ≠ []) :
    StoreCall.on (behind d f n calls) (.append data)
      = (appendAnswer d f n calls data,
        behind d f n (calls ++ [.append data])) := by
  have hrefuses : (f.spent n calls).refuses data.length
      = decide (n < (appended calls).length + data.length) :=
    Faults.refuses_spent hlimit (List.length_pos_of_ne_nil hdata)
  have htake : (appended calls ++ data).take n
      = (appended calls).take n
        ++ data.take (n - (appended calls).length) := List.take_append
  unfold behind appendAnswer
  rw [appended_append, appended_singleton, StoreCall.data, htake,
    ← List.append_assoc, StoreCall.on, append_faulty, hrefuses]
  by_cases hfits : (appended calls).length + data.length ≤ n
  · have hall : (appended calls).take n = appended calls :=
      List.take_of_length_le (by omega)
    have hwhole : data.take (n - (appended calls).length) = data :=
      List.take_of_length_le (by omega)
    have hsize : (behind d f n calls).size
        = (d ++ appended calls).length := by
      unfold behind
      rw [hall]
      rfl
    rw [if_pos hfits, if_neg (by simpa using hfits), hall, hwhole,
      Faults.spent_wrote hfits, hsize]
    rfl
  · have hbeyond : n < (appended calls).length + data.length := by omega
    rw [if_neg hfits, if_pos (by simpa using hbeyond),
      Faults.spent_refused hbeyond, Faults.room_spent]
    rfl

/-- What is to be appended grows by appends alone. -/
theorem appended_concat {c : StoreCall} (hdata : c.data = []) :
    appended (calls ++ [c]) = appended calls := by
  rw [appended_append, appended_singleton, hdata, List.append_nil]

/-- Settling changes no byte, and trips the switch where it is made to
fail. -/
theorem settle_behind {c : StoreCall} (hdata : c.data = [])
    (hsettles : c.settles = true) (operation : String) :
    answered (fun _ => .done) (settle operation (behind d f n calls))
      = (if f.failFlush then .error (.injected operation) else .ok .done,
        behind d f n (calls ++ [c])) := by
  unfold behind
  rw [appended_concat hdata]
  cases hflush : f.failFlush with
  | false =>
      rw [Faults.spent_settled hdata hflush, settle,
        show (f.spent n calls).failFlush = false from hflush]
      rfl
  | true =>
      rw [Faults.spent_tripped hdata hsettles hflush, settle,
        show (f.spent n calls).failFlush = true from hflush]
      rfl

/-- A call that appends nothing changes no byte, and is not refused as an
append. -/
theorem on_behind {c : StoreCall} (hadds : c.Adds) (hdata : c.data = []) :
    ∃ answer, c.on (behind d f n calls)
        = (answer, behind d f n (calls ++ [c]))
      ∧ answer ≠ .error (.injected "append") := by
  have hlook (hsettles : c.settles = false) :
      behind d f n (calls ++ [c]) = behind d f n calls := by
    unfold behind
    rw [appended_concat hdata, Faults.spent_concat hdata hsettles]
  have hsettled (operation : String) (hne : operation ≠ "append") :
      (if f.failFlush then .error (.injected operation) else .ok .done
        : Except StoreFault StoreAnswer) ≠ .error (.injected "append") := by
    split
    · simpa using hne
    · nofun
  cases c with
  | append data => exact (hadds hdata).elim
  | readAt offset length =>
      refine ⟨_, Prod.ext rfl (hlook rfl).symm, ?_⟩
      unfold behind
      dsimp only [StoreCall.on]
      rw [readAt, readAt]
      split <;> nofun
  | size => exact ⟨_, Prod.ext rfl (hlook rfl).symm, nofun⟩
  | flush => exact ⟨_, settle_behind rfl rfl "flush", hsettled _ (by decide)⟩
  | sync => exact ⟨_, settle_behind rfl rfl "sync", hsettled _ (by decide)⟩
  | truncate n => exact hadds.elim

-- ============================================================ all calls

/-- Some append is refused exactly if there was more to append than may go
through. -/
theorem through_behind (hlimit : f.written + n < maxSize)
    (hcalls : ∀ c ∈ calls, c.Adds) :
    ((behind d f n []).through calls).2 = behind d f n calls
      ∧ (.error (.injected "append") ∈ ((behind d f n []).through calls).1
        ↔ n < (appended calls).length) := by
  -- from the end, since what is answered goes by all that came before
  induction calls using List.reverseRecOn with
  | nil => exact ⟨rfl, by simp [Store.through, appended]⟩
  | append_singleton calls c ih =>
      obtain ⟨hbefore, hc⟩ := List.forall_mem_append.1 hcalls
      obtain ⟨hleft, hrefused⟩ := ih hbefore
      have hadds : c.Adds := hc c (List.mem_singleton_self c)
      rw [through_append, hleft, through_cons]
      cases c with
      | append data =>
          rw [append_behind hlimit hadds, List.mem_append, hrefused,
            appended_append, appended_singleton, List.length_append]
          refine ⟨rfl, ?_⟩
          show _ ∨ _ ∈ [_] ↔ _
          rw [List.mem_singleton, eq_comm, appendAnswer_eq_error,
            StoreCall.data]
          omega
      | _ =>
          obtain ⟨answer, hon, hother⟩ := on_behind hadds rfl
          rw [hon, List.mem_append, hrefused, appended_append,
            appended_singleton, List.length_append]
          refine ⟨rfl, ?_⟩
          show _ ∨ _ ∈ [_] ↔ _
          rw [List.mem_singleton]
          exact or_iff_left hother.symm

/-- An append among the calls is answered as what came before it has it. -/
theorem answer_behind (hlimit : f.written + n < maxSize)
    {before after : List StoreCall} {data : Bytes}
    (hcalls : ∀ c ∈ before ++ .append data :: after, c.Adds) :
    ((behind d f n []).through (before ++ .append data :: after)).1[
        before.length]? = some (appendAnswer d f n before data) := by
  obtain ⟨hbefore, hrest⟩ := List.forall_mem_append.1 hcalls
  have hadds : data ≠ [] := hrest _ List.mem_cons_self
  rw [through_append, (through_behind hlimit hbefore).1, through_cons,
    append_behind hlimit hadds, ← length_through (behind d f n []) before,
    List.getElem?_append_right (Nat.le_refl _), Nat.sub_self]
  rfl

variable (d f)

/-- A store whose switch is set to fail appends after some more bytes holds
exactly so many of the bytes appended since, the first of them. An append
succeeds, and gives the size that the store had, exactly if all bytes so far
and its own are no more than those; every other fails. The switch trips
exactly if an append fails, or a flush or sync that it is set to fail. -/
theorem lets_first_bytes_through (hlimit : f.written + n < maxSize)
    (hcalls : ∀ c ∈ calls, c.Adds) :
    let armed : Store := .faulty (.memory d) (f.failAppendsAfter n)
    let answers := (armed.through calls).1
    let store := (armed.through calls).2
    store.bytes = d ++ (appended calls).take n
      ∧ (∀ before data after, calls = before ++ .append data :: after →
        answers[before.length]? = some
          (if (appended before).length + data.length ≤ n then
            .ok (.appendedAt (armed.through before).2.size)
          else .error (.injected "append")))
      ∧ (f.tripped = false →
        (store.faults?.any (·.tripped) = true
          ↔ .error (.injected "append") ∈ answers
            ∨ f.failFlush = true ∧ ∃ c ∈ calls, c.settles = true)) := by
  dsimp only
  obtain ⟨hstore, hrefused⟩ := through_behind (d := d) hlimit hcalls
  rw [armed_eq_behind hlimit, hstore, hrefused]
  refine ⟨rfl, fun before data after hsplit => ?_, fun htripped => ?_⟩
  · subst hsplit
    have hbefore := (List.forall_mem_append.1 hcalls).1
    rw [answer_behind hlimit hcalls, (through_behind hlimit hbefore).1]
    rfl
  · simp [behind, faults?, Faults.spent, htripped]

/-- Two bytes that go through, four of which one does, and one that does
not, with a look at the size in between. -/
def overflowing : List StoreCall :=
  [.append [1, 2], .flush, .append [3, 4, 5, 6], .size, .append [7]]

/-- The last append is refused though it is shorter than what was let through
of the one before. -/
theorem lets_first_bytes_through_overflowing :
    let armed : Store := .faulty (.memory [9])
      (Faults.failAppendsAfter { written := 1 } 5)
    let answers := (armed.through overflowing).1
    let store := (armed.through overflowing).2
    store.bytes = [9, 1, 2, 3, 4, 5]
      ∧ answers[0]? = some (.ok (.appendedAt 1))
      ∧ answers[2]? = some (.error (.injected "append"))
      ∧ answers[4]? = some (.error (.injected "append"))
      ∧ store.faults?.any (·.tripped) = true := by
  have hcalls : ∀ c ∈ overflowing, c.Adds := by
    simp [overflowing, StoreCall.Adds]
  obtain ⟨hbytes, hanswers, htripped⟩ := lets_first_bytes_through [9]
    { written := 1 } (n := 5) (by decide) hcalls
  refine ⟨hbytes, hanswers [] _ _ rfl, ?_, ?_, ?_⟩
  · exact hanswers [.append [1, 2], .flush] _ _ rfl
  · exact hanswers [.append [1, 2], .flush, .append [3, 4, 5, 6], .size] _ _
      rfl
  · refine (htripped rfl).2 (.inl ?_)
    exact List.mem_of_getElem? (hanswers [.append [1, 2], .flush] _ _ rfl)

end Store

end Colonnade
