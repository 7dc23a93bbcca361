/-
A log as a sequence of frames. `Framed bytes records` says that the bytes are
whole frames, one after the other, that hold these records and leave nothing
over. Appending a frame appends its record; that is all the structure a log
has.

Reading an exact store from the start succeeds on framed bytes and visits
the records in order, and where reading succeeds at all the valid part of
the store is framed. What a visitor does is given as a relation between
states, so that where a frame lies plays no part.

Chain: `Engine.Recoverable` keeps the log of an engine framed.
-/
import Colonnade.Proofs.Store
import Colonnade.Proofs.Wire.Keys

namespace Colonnade.History

open Wire

/-- Bytes that are whole frames, one after the other. -/
inductive Framed : Bytes → List CommitRecord → Prop
  | nil : Framed [] []
  | cons {data rest : Bytes} {h : Header} {r : CommitRecord}
      {rs : List CommitRecord} (hframe : IsFrame data h r)
      (hrest : Framed rest rs) : Framed (data ++ rest) (r :: rs)

/-- A frame at the end adds its record at the end. -/
theorem Framed.append {bytes data : Bytes} {h : Header} {r : CommitRecord}
    {rs : List CommitRecord} (hframed : Framed bytes rs)
    (hframe : IsFrame data h r) : Framed (bytes ++ data) (rs ++ [r]) := by
  induction hframed with
  | nil =>
      have := Framed.cons hframe .nil
      rwa [List.append_nil] at this
  | cons hfirst _ ih =>
      rw [List.append_assoc]
      exact .cons hfirst ih

/-- The records in a log name no negative keys. -/
theorem Framed.keysNonneg {bytes : Bytes} {rs : List CommitRecord}
    (h : Framed bytes rs) :
    ∀ r ∈ rs, ∀ i ∈ r.instructions, i.KeysNonneg := by
  induction h with
  | nil => exact nofun
  | cons hframe _ ih => exact List.forall_mem_cons.2 ⟨hframe.keysNonneg, ih⟩

/-- Records visited one after the other. -/
inductive Visited {σ : Type} (step : CommitRecord → σ → σ → Prop) :
    List CommitRecord → σ → σ → Prop
  | nil (s : σ) : Visited step [] s s
  | cons {r : CommitRecord} {rs : List CommitRecord} {s t u : σ}
      (hstep : step r s t) (hrest : Visited step rs t u) :
      Visited step (r :: rs) s u

/-- One more record is visited at the end. -/
theorem Visited.append {σ : Type} {step : CommitRecord → σ → σ → Prop}
    {rs : List CommitRecord} {r : CommitRecord} {s t u : σ}
    (h : Visited step rs s t) (hstep : step r t u) :
    Visited step (rs ++ [r]) s u := by
  induction h with
  | nil s => exact .cons hstep (.nil u)
  | cons hfirst _ ih => exact .cons hfirst (ih hstep)

-- ========================================================= one frame

@[simp]
theorem ofStore_eq_ok {α : Type} {x : Except StoreFault α} {a : α} :
    ofStore x = .ok a ↔ x = .ok a := by
  cases x <;> simp [ofStore]

@[simp]
theorem ofRecord_eq_ok {α : Type} {offset : Nat} {x : Except Corruption α}
    {a : α} : ofRecord offset x = .ok a ↔ x = .ok a := by
  cases x <;> simp [ofRecord]

/-- A frame is no shorter than its header. -/
theorem headerSize_le (h : Header) : headerSize ≤ h.frameLength := by
  unfold Header.frameLength
  omega

/-- There are no more records than bytes. -/
theorem Framed.length_le {bytes : Bytes} {rs : List CommitRecord}
    (h : Framed bytes rs) : rs.length ≤ bytes.length := by
  induction h with
  | nil => exact Nat.le_refl _
  | @cons data rest header r rs hframe _ ih =>
      have hpos : 0 < headerSize := by decide
      have hlen := headerSize_le header
      rw [List.length_append, hframe.length_eq, List.length_cons]
      omega

/-- A frame is found where the bytes of one lie. -/
theorem frameAt?_eq_some {store : Store} (hexact : store.Exact)
    {offset : Nat} {h : Header} {r : CommitRecord} :
    frameAt? store offset = .ok (some (h, r))
      ↔ ∃ data rest, store.bytes.drop offset = data ++ rest
        ∧ IsFrame data h r := by
  have hhead := headerSize_le h
  have hpos : 0 < headerSize := by decide
  constructor
  · intro hfound
    simp only [frameAt?] at hfound
    split at hfound
    next => simp at hfound
    next hlarge =>
      simp only [Check.bind_eq_ok, ofStore_eq_ok, ofRecord_eq_ok] at hfound
      obtain ⟨head, hread, header, hparse, hfound⟩ := hfound
      split at hfound
      next => simp at hfound
      next hwhole =>
        simp only [Check.bind_eq_ok, ofStore_eq_ok, ofRecord_eq_ok,
          Check.pure_eq_ok, Option.some.injEq, Prod.mk.injEq] at hfound
        obtain ⟨frame, hframe, payload, hverify, record, hdecode, rfl, rfl⟩ :=
          hfound
        rw [hexact.size_eq] at hlarge hwhole
        rw [hexact.readAt_eq (by omega)] at hread hframe
        cases hread
        cases hframe
        refine ⟨_, (store.bytes.drop offset).drop header.frameLength,
          (List.take_append_drop header.frameLength _).symm, ?_, ?_,
          payload, verifyFrame_eq_ok.1 hverify, hdecode⟩
        · rw [List.take_take, Nat.min_eq_left hhead]
          exact hparse
        · rw [List.length_take, List.length_drop]
          omega
  · intro h
    rcases h with ⟨data, rest, hdrop, hparse, hlength, payload, hverify,
      hdecode⟩
    -- what is there is long enough for the header and then for the frame
    have hroom : store.bytes.length - offset = data.length + rest.length := by
      rw [← List.length_drop, hdrop, List.length_append]
    have hread : store.readAt offset headerSize
        = .ok (data.take headerSize) := by
      rw [hexact.readAt_eq (by omega), hdrop, List.take_append_of_le_length
        (by omega)]
    have hframe : store.readAt offset h.frameLength = .ok data := by
      rw [hexact.readAt_eq (by omega), hdrop, ← hlength, List.take_left]
    simp only [frameAt?, hexact.size_eq]
    rw [if_neg (by omega), hread]
    simp only [Check.bind_eq_ok, ofStore_eq_ok, ofRecord_eq_ok]
    refine ⟨_, rfl, h, hparse, ?_⟩
    rw [if_neg (by omega), hframe]
    simp only [Check.bind_eq_ok, ofStore_eq_ok, ofRecord_eq_ok]
    exact ⟨data, rfl, payload, verifyFrame_eq_ok.1 hverify, r, hdecode, rfl⟩

-- ======================================================= frame by frame

section Reading

variable {σ : Type} {store : Store} {visit : Nat → CommitRecord → Edit σ Unit}
  {step : CommitRecord → σ → σ → Prop}

/-- What a reading from an offset went through: whole frames, visited in
order, and then the torn tail. -/
def WentThrough (store : Store) (step : CommitRecord → σ → σ → Prop)
    (offset : Nat) (sum : Summary) (s s' : σ) : Prop :=
  ∃ body records tail, store.bytes.drop offset = body ++ tail
    ∧ Framed body records ∧ sum.validLength = offset + body.length
    ∧ sum.tornTail = tail.length ∧ Visited step records s s'

/-- A reading that stops where it starts went through nothing. -/
theorem WentThrough.stop (hexact : store.Exact) (offset : Nat)
    (done : Summary) (s : σ) :
    WentThrough store step offset
      { done with
        validLength := offset, tornTail := store.size - offset } s s := by
  refine ⟨[], [], _, rfl, .nil, rfl, ?_, .nil s⟩
  rw [hexact.size_eq, List.length_drop]

/-- A frame is gone through, and then the rest. -/
theorem WentThrough.frame {offset : Nat} {sum : Summary} {s t u : σ}
    {data rest : Bytes} {h : Header} {r : CommitRecord}
    (hdrop : store.bytes.drop offset = data ++ rest)
    (hframe : IsFrame data h r) (hstep : step r s t)
    (hrest : WentThrough store step (offset + h.frameLength) sum t u) :
    WentThrough store step offset sum s u := by
  obtain ⟨body, records, tail, hbody, hframed, hvalid, htorn, hseen⟩ := hrest
  rw [← hframe.length_eq, ← List.drop_drop, hdrop, List.drop_left] at hbody
  refine ⟨data ++ body, r :: records, tail, ?_, .cons hframe hframed, ?_,
    htorn, .cons hstep hseen⟩
  · rw [hdrop, hbody, List.append_assoc]
  · rw [hvalid, List.length_append, hframe.length_eq, Nat.add_assoc]

/-- Where reading succeeds, it has gone through whole frames. -/
theorem readFrom_gives (hexact : store.Exact)
    (hvisit : ∀ n r s s', Edit.Gives (visit n r) s () s' → step r s s')
    {offset : Nat} {done sum : Summary} {s s' : σ}
    (h : Edit.Gives (readFrom store visit offset done) s sum s') :
    WentThrough store step offset sum s s' := by
  -- on what is left to read
  induction hleft : store.bytes.length - offset using Nat.strongRecOn
    generalizing offset done s with
  | ind n ih =>
      rw [readFrom] at h
      by_cases hlt : offset < store.size
      · rw [dif_pos hlt, Edit.gives_bind] at h
        obtain ⟨found, t, hgives, h⟩ := h
        obtain ⟨hfound, rfl⟩ := Edit.gives_ofExcept.1 hgives
        cases found with
        | none =>
            obtain ⟨rfl, rfl⟩ := Edit.gives_pure.1 h
            exact .stop hexact offset done s
        | some found =>
            obtain ⟨header, record⟩ := found
            obtain ⟨_, t, hseen, h⟩ := Edit.gives_bind.1 h
            obtain ⟨data, rest, hdrop, hframe⟩ :=
              (frameAt?_eq_some hexact).1 hfound
            have hsize := hexact.size_eq
            have hpos := headerSize_le header
            have hheader : 0 < headerSize := by decide
            exact .frame hdrop hframe (hvisit _ _ _ _ hseen)
              (ih _ (by omega) h rfl)
      · rw [dif_neg hlt] at h
        obtain ⟨rfl, rfl⟩ := Edit.gives_pure.1 h
        exact .stop hexact offset done s

/-- Framed bytes are read to the end. -/
theorem readFrom_of_framed (hexact : store.Exact)
    (hvisit : ∀ n r s s', step r s s' → Edit.Gives (visit n r) s () s')
    {records : List CommitRecord} {s s' : σ}
    (hseen : Visited step records s s') {offset : Nat}
    (hframed : Framed (store.bytes.drop offset) records) (done : Summary) :
    ∃ sum, Edit.Gives (readFrom store visit offset done) s sum s'
      ∧ sum.tornTail = 0 := by
  induction hseen generalizing offset done with
  | nil s =>
      have hempty : store.bytes.drop offset = [] := by
        generalize store.bytes.drop offset = bytes at hframed
        cases hframed
        rfl
      have hend : store.bytes.length - offset = 0 := by
        rw [← List.length_drop, hempty]
        rfl
      rw [readFrom, dif_neg (by rw [hexact.size_eq]; omega)]
      refine ⟨_, Edit.gives_pure.2 ⟨rfl, rfl⟩, ?_⟩
      show store.size - offset = 0
      rw [hexact.size_eq]
      exact hend
  | @cons r rs s t u hstep _ ih =>
      obtain ⟨data, rest, h, hdrop, hframe, hrest⟩ :
          ∃ data rest h, store.bytes.drop offset = data ++ rest
            ∧ IsFrame data h r ∧ Framed rest rs := by
        generalize store.bytes.drop offset = bytes at hframed
        cases hframed with
        | cons hframe hrest => exact ⟨_, _, _, rfl, hframe, hrest⟩
      -- the induction is on the records; the rest of the store holds the rest
      -- of them
      have hnext : store.bytes.drop (offset + h.frameLength) = rest := by
        rw [← hframe.length_eq, ← List.drop_drop, hdrop, List.drop_left]
      have hroom : data.length + rest.length
          = store.bytes.length - offset := by
        rw [← List.length_append, ← hdrop, List.length_drop]
      have hlen := hframe.length_eq
      have hpos := headerSize_le h
      have hheader : 0 < headerSize := by decide
      rw [← hnext] at hrest
      obtain ⟨sum, hread, htorn⟩ := ih hrest
        { done with
          records := done.records + 1
          newestFormat := max done.newestFormat h.format }
      refine ⟨sum, ?_, htorn⟩
      rw [readFrom, dif_pos (by rw [hexact.size_eq]; omega), Edit.gives_bind]
      have hfound := (frameAt?_eq_some hexact).2 ⟨data, rest, hdrop, hframe⟩
      exact ⟨_, s, Edit.gives_ofExcept.2 ⟨hfound, rfl⟩,
        Edit.gives_bind.2 ⟨(), t, hvisit _ _ _ _ hstep, hread⟩⟩

end Reading

end Colonnade.History

namespace Colonnade.HistoryLog

open History

/-- Replaying cuts off what reading reports as torn. -/
theorem gives_replay {σ : Type} {visit : Nat → CommitRecord → Edit σ Unit}
    {log : HistoryLog} {whole tail : Bytes} {sum : Summary} {s t : σ}
    (hexact : log.store.Exact) (hbytes : log.store.bytes = whole ++ tail)
    (hread : Edit.Gives (read log.store visit) s sum t)
    (hvalid : sum.validLength = whole.length)
    (htorn : sum.tornTail = tail.length) :
    ∃ log', Edit.Gives (replay visit) (log, s) sum (log', t)
      ∧ Holds log.format whole log' := by
  simp only [replay, Edit.gives_bind, Edit.gives_get, Edit.gives_focus]
  by_cases htail : 0 < sum.tornTail
  · obtain ⟨log', hcut, hholds⟩ := run_truncate hexact hbytes
    refine ⟨log', ⟨_, _, ⟨rfl, rfl⟩, sum, _, ⟨t, hread, rfl⟩, ?_⟩, hholds⟩
    rw [if_pos htail, hvalid]
    simp only [Edit.gives_bind, Edit.gives_focus]
    exact ⟨.ok (), (log', t), ⟨log', hcut, rfl⟩, Edit.gives_pure.2 ⟨rfl, rfl⟩⟩
  · have hnil : tail = [] := List.eq_nil_of_length_eq_zero (by omega)
    rw [hnil, List.append_nil] at hbytes
    refine ⟨log, ⟨_, _, ⟨rfl, rfl⟩, sum, _, ⟨t, hread, rfl⟩, ?_⟩, rfl, hexact,
      hbytes⟩
    rw [if_neg htail]
    exact Edit.gives_pure.2 ⟨rfl, rfl⟩

end Colonnade.HistoryLog
