/-
Reading bytes behind others. Where the first bytes are whole frames and
nothing else, reading both is reading the first and then the second: the
records of the second come after those of the first and lie so much further
on, and what is wrong with the second is wrong with both, at a place so much
further on.

What the reader finds at a place is told from the bytes that are left there
(`foundIn`); the place itself is only in the error. So frames of the first
are found whatever comes behind them, and behind the last of them the reader
finds what it finds in the second, moved.

Chain: steps of a reading from `Report.Verified`; `History.Opened` has why
the second fails for damage only.
-/
import Colonnade.Proofs.History.Acknowledged
import Colonnade.Proofs.Report.Verified

namespace Colonnade

-- ============================================================== further on

/-- The error for damage so much further on. -/
def Error.movedBy (n : Nat) : Error → Error
  | corrupt offset what => corrupt (n + offset) what
  | checksum offset stored computed => checksum (n + offset) stored computed
  | err => err

namespace History

open Wire HistoryLog

/-- Records so much further on. -/
def moved (n : Nat) (ns : List (Nat × CommitRecord)) :
    List (Nat × CommitRecord) :=
  ns.map fun p => (n + p.1, p.2)

theorem moved_concat (n : Nat) (ns : List (Nat × CommitRecord))
    (offset : Nat) (r : CommitRecord) :
    moved n (ns ++ [(offset, r)]) = moved n ns ++ [(n + offset, r)] :=
  List.map_append

/-- What two readings went through, one behind the other. -/
def Summary.followedBy (sum next : Summary) : Summary where
  records := sum.records + next.records
  validLength := sum.validLength + next.validLength
  tornTail := next.tornTail
  newestFormat := max sum.newestFormat next.newestFormat

theorem toNat_max (f g : UInt16) : (max f g).toNat = max f.toNat g.toNat := by
  show (if f ≤ g then g else f).toNat = _
  split
  next h => exact (Nat.max_eq_right (UInt16.le_iff_toNat_le.1 h)).symm
  next h =>
    rw [UInt16.not_le, UInt16.lt_iff_toNat_lt] at h
    exact (Nat.max_eq_left (Nat.le_of_lt h)).symm

/-- The newest format of three is that of two and one. -/
theorem max_format_assoc (f g h : UInt16) :
    max (max f g) h = max f (max g h) := by
  rw [← UInt16.toNat_inj]
  simp only [toNat_max, Nat.max_assoc]

theorem max_format_zero (f : UInt16) : max f 0 = f := by
  rw [← UInt16.toNat_inj, toNat_max]
  exact Nat.max_eq_left (Nat.zero_le _)

/-- What becomes of a reading that starts so much further on, when others
were read before. -/
def continued (n : Nat) (sum : Summary) (ns : List (Nat × CommitRecord)) :
    EStateM.Result Error (List (Nat × CommitRecord)) Summary →
      EStateM.Result Error (List (Nat × CommitRecord)) Summary
  | .ok next more => .ok (sum.followedBy next) (ns ++ moved n more)
  | .error err more => .error (err.movedBy n) (ns ++ moved n more)

/-- Damage so much further on is damage there. -/
theorem DamageAt.movedBy {n offset : Nat} {err : Error}
    (h : DamageAt offset err) : DamageAt (n + offset) (err.movedBy n) := by
  rcases h with ⟨what, rfl⟩ | ⟨stored, computed, rfl⟩
  · exact .inl ⟨what, rfl⟩
  · exact .inr ⟨stored, computed, rfl⟩

-- =============================================================== one place

/-- What is found in the bytes that are left at an offset. -/
def foundIn (offset : Nat) (left : Bytes) :
    Except Error (Option (Header × CommitRecord)) := do
  if left.length < headerSize then
    return none
  let header ← ofRecord offset (Header.parse (left.take headerSize))
  if left.length < header.frameLength then
    return none
  let payload ← verifyFrame offset (left.take header.frameLength)
  let record ← ofRecord offset (decodePayload payload)
  return some (header, record)

/-- The reader goes by nothing but these bytes. -/
theorem frameAt?_eq_foundIn {store : Store} (hexact : store.Exact)
    (offset : Nat) :
    frameAt? store offset = foundIn offset (store.bytes.drop offset) := by
  have hleft : (store.bytes.drop offset).length = store.size - offset := by
    rw [List.length_drop, hexact.size_eq]
  have hread {length : Nat} (hpos : 0 < length)
      (hle : ¬ store.size - offset < length) :
      store.readAt offset length
        = .ok ((store.bytes.drop offset).take length) := by
    rw [hexact.size_eq] at hle
    exact hexact.readAt_eq (by omega)
  unfold frameAt? foundIn
  dsimp only
  rw [hleft]
  by_cases hshort : store.size - offset < headerSize
  · rw [if_pos hshort, if_pos hshort]
  · rw [if_neg hshort, if_neg hshort, hread (by decide) hshort]
    show (ofRecord offset _ >>= _) = (ofRecord offset _ >>= _)
    refine bind_congr fun header => ?_
    have hlength : 0 < header.frameLength :=
      Nat.lt_of_lt_of_le (by decide) (headerSize_le header)
    by_cases hlong : store.size - offset < header.frameLength
    · rw [if_pos hlong, if_pos hlong]
    · rw [if_neg hlong, if_neg hlong, hread hlength hlong]
      rfl

/-- Damage found further on carries the place further on. -/
theorem ofRecord_moved {α : Type} (n offset : Nat) (x : Except Corruption α) :
    ofRecord (n + offset) x
      = (ofRecord offset x).mapError (Error.movedBy n) := by
  cases x <;> rfl

/-- A frame further on is verified the same, but for its place. -/
theorem verifyFrame_moved (n offset : Nat) (data : Bytes) :
    verifyFrame (n + offset) data
      = (verifyFrame offset data).mapError (Error.movedBy n) := by
  unfold verifyFrame
  dsimp only
  split <;> rfl

/-- What is changed about errors is changed in both steps. -/
theorem mapError_bind {ε ε' α β : Type} (x : Except ε α)
    (f : α → Except ε β) (g : ε → ε') :
    (x >>= f).mapError g = x.mapError g >>= fun a => (f a).mapError g := by
  cases x <;> rfl

/-- The same bytes further on are the same frame, or damaged there in the
same way. -/
theorem foundIn_moved (n offset : Nat) (left : Bytes) :
    foundIn (n + offset) left
      = (foundIn offset left).mapError (Error.movedBy n) := by
  unfold foundIn
  by_cases hshort : left.length < headerSize
  · rw [if_pos hshort, if_pos hshort]
    rfl
  rw [if_neg hshort, if_neg hshort, ofRecord_moved, mapError_bind]
  refine bind_congr fun header => ?_
  by_cases hlong : left.length < header.frameLength
  · rw [if_pos hlong, if_pos hlong]
    rfl
  rw [if_neg hlong, if_neg hlong, verifyFrame_moved, mapError_bind]
  refine bind_congr fun payload => ?_
  rw [ofRecord_moved, mapError_bind]
  rfl

-- ======================================================== both readings

section Joined

variable {s t u : Store} {sum : Summary} {ns : List (Nat × CommitRecord)}

theorem run_note_bind (n : Nat) (r : CommitRecord)
    (next : Edit (List (Nat × CommitRecord)) Summary)
    (seen : List (Nat × CommitRecord)) :
    (do note n r; next).run seen = next.run (seen ++ [(n, r)]) := rfl

/-- A frame is found whatever comes behind the bytes that it is in. -/
theorem frameAt?_extended (hs : s.Exact) (hu : u.Exact)
    (hbytes : u.bytes = s.bytes ++ t.bytes) {offset : Nat} {h : Header}
    {r : CommitRecord} (hle : offset ≤ s.bytes.length)
    (hfound : frameAt? s offset = .ok (some (h, r))) :
    frameAt? u offset = .ok (some (h, r)) := by
  obtain ⟨data, rest, hdrop, hframe⟩ := (frameAt?_eq_some hs).1 hfound
  refine (frameAt?_eq_some hu).2 ⟨data, rest ++ t.bytes, ?_, hframe⟩
  rw [hbytes, List.drop_append_of_le_length hle, hdrop, List.append_assoc]

/-- Where the first bytes are read to their end, both are read from there
on. -/
theorem run_behind_first (hs : s.Exact) (hu : u.Exact)
    (hbytes : u.bytes = s.bytes ++ t.bytes)
    (hread : Edit.Gives (read s note) [] sum ns) (hwhole : sum.tornTail = 0) :
    ∃ last, sum = last.ending s s.bytes.length
      ∧ (read u note).run []
        = (readFrom u note s.bytes.length last).run ns := by
  -- reading the whole has come to the same place with the same records
  let Inv (offset : Nat) (done : Summary)
      (seen : List (Nat × CommitRecord)) : Prop :=
    offset ≤ s.bytes.length
      ∧ (read u note).run [] = (readFrom u note offset done).run seen
  have hstep {offset : Nat} {done : Summary}
      {seen : List (Nat × CommitRecord)} {h : Header} {r : CommitRecord}
      {seen' : List (Nat × CommitRecord)} (hinv : Inv offset done seen)
      (hin : offset < s.size)
      (hfound : frameAt? s offset = .ok (some (h, r)))
      (hseen : Edit.Gives (note offset r) seen () seen') :
      Inv (offset + h.frameLength) (done.after h) seen' := by
    obtain ⟨hle, hrun⟩ := hinv
    obtain rfl := Edit.gives_modify.1 hseen
    have hfits := frameLength_le_of_frameAt? hs hfound
    rw [hs.size_eq] at hin hfits
    have hin' : offset < u.size := by
      rw [hu.size_eq, hbytes, List.length_append]
      omega
    refine ⟨by omega, ?_⟩
    rw [hrun, readFrom_found hin' (frameAt?_extended hs hu hbytes hle hfound),
      run_note_bind]
    rfl
  have hstart : Inv 0 {} [] := ⟨Nat.zero_le _, rfl⟩
  obtain ⟨stop, last, ⟨hle, hrun⟩, -, rfl⟩ :=
    readFrom_keeps hstep hread hstart
  have hstop : stop = s.bytes.length := by
    have hnone : s.size - stop = 0 := hwhole
    rw [hs.size_eq] at hnone
    omega
  subst hstop
  exact ⟨last, rfl, hrun⟩

/-- Behind the first bytes a place is what it is in the second. -/
theorem frameAt?_moved (ht : t.Exact) (hu : u.Exact)
    (hbytes : u.bytes = s.bytes ++ t.bytes) (offset : Nat) :
    frameAt? u (s.bytes.length + offset)
      = (frameAt? t offset).mapError (Error.movedBy s.bytes.length) := by
  rw [frameAt?_eq_foundIn hu, frameAt?_eq_foundIn ht, hbytes,
    List.drop_append, List.drop_eq_nil_of_le (Nat.le_add_right ..), List.nil_append,
    Nat.add_sub_cancel_left, foundIn_moved]

/-- Behind the first bytes a reading goes on as one of the second does, so
much further on. -/
theorem run_readFrom_moved (ht : t.Exact) (hu : u.Exact)
    (hbytes : u.bytes = s.bytes ++ t.bytes)
    (hend : sum.validLength = s.bytes.length) {offset : Nat}
    {done all : Summary} {more : List (Nat × CommitRecord)}
    (hrecords : all.records = sum.records + done.records)
    (hnewest : all.newestFormat = max sum.newestFormat done.newestFormat) :
    (readFrom u note (s.bytes.length + offset) all).run
        (ns ++ moved s.bytes.length more)
      = continued s.bytes.length sum ns
        ((readFrom t note offset done).run more) := by
  have hsize : u.size = s.bytes.length + t.size := by
    rw [hu.size_eq, ht.size_eq, hbytes, List.length_append]
  have hplace := frameAt?_moved ht hu hbytes
  have hending (done all : Summary) (offset : Nat)
      (hrecords : all.records = sum.records + done.records)
      (hnewest : all.newestFormat = max sum.newestFormat done.newestFormat) :
      all.ending u (s.bytes.length + offset)
        = sum.followedBy (done.ending t offset) := by
    unfold Summary.ending Summary.followedBy
    rw [hrecords, hnewest, hend, hsize, Nat.add_sub_add_left]
  -- on what is left to read of the second
  induction hleft : t.size - offset using Nat.strongRecOn
    generalizing offset done all more with
  | ind n ih =>
      by_cases hin : offset < t.size
      · have hin' : s.bytes.length + offset < u.size := by omega
        have hthere := hplace offset
        cases hfound : frameAt? t offset with
        | error err =>
            rw [hfound] at hthere
            rw [readFrom_damaged hin hfound, readFrom_damaged hin' hthere]
            rfl
        | ok found =>
            rw [hfound] at hthere
            cases found with
            | none =>
                rw [readFrom_torn hin hfound, readFrom_torn hin' hthere]
                exact congrArg (EStateM.Result.ok · _)
                  (hending done all offset hrecords hnewest)
            | some found =>
                obtain ⟨h, r⟩ := found
                have hpos := headerSize_le h
                have hheader : 0 < headerSize := by decide
                rw [readFrom_found hin hfound, readFrom_found hin' hthere,
                  run_note_bind, run_note_bind, List.append_assoc,
                  Nat.add_assoc]
                rw [← moved_concat]
                refine ih _ (by omega) ?_ ?_ rfl
                · dsimp only
                  rw [hrecords, Nat.add_assoc]
                · dsimp only
                  rw [hnewest, max_format_assoc]
      · have hout : u.size ≤ s.bytes.length + offset := by omega
        rw [readFrom_end (Nat.not_lt.1 hin), readFrom_end hout]
        exact congrArg (EStateM.Result.ok · _)
          (hending done all offset hrecords hnewest)

/-- Noting never fails, so a reading that notes stops for damage alone. -/
theorem damageAt_of_read (hs : s.Exact) {err : Error}
    (hread : (read s note).run [] = .error err ns) :
    ∃ offset < s.size, DamageAt offset err := by
  obtain ⟨offset, hin, hdamage | ⟨_, _, _, hnote⟩⟩ :=
    readFrom_fails hs note 0 {} _ _ _ hread
  · exact ⟨offset, hin, hdamage⟩
  · cases hnote

end Joined

/-- Where bytes are read to their end and nothing of them is torn, bytes
behind them are read as on their own: their records come after, so much
further on, and the summaries are added up; and if they cannot be read it is
for damage, and the reading of both fails for the same damage, so much
further on. -/
theorem read_append {a : Bytes} {sum : Summary}
    {ns : List (Nat × CommitRecord)}
    (hread : Edit.Gives (read (.memory a) note) [] sum ns)
    (hwhole : sum.tornTail = 0) (b : Bytes) :
    (read (.memory (a ++ b)) note).run []
        = (match (read (.memory b) note).run [] with
          | .ok next more =>
            .ok (sum.followedBy next) (ns ++ moved a.length more)
          | .error err more =>
            .error (err.movedBy a.length) (ns ++ moved a.length more))
      ∧ ∀ err more, (read (.memory b) note).run [] = .error err more →
        ∃ offset < b.length, DamageAt offset err
          ∧ DamageAt (a.length + offset) (err.movedBy a.length) := by
  have ha : (Store.memory a).Exact := trivial
  have hb : (Store.memory b).Exact := trivial
  have hab : (Store.memory (a ++ b)).Exact := trivial
  obtain ⟨last, rfl, hrun⟩ :=
    run_behind_first (t := .memory b) ha hab rfl hread hwhole
  have hrest : (readFrom (.memory (a ++ b)) note (a.length + 0) last).run
        (ns ++ moved a.length [])
      = continued a.length (last.ending (.memory a) a.length) ns
        ((read (.memory b) note).run []) :=
    run_readFrom_moved (s := .memory a) hb hab rfl rfl rfl
      (max_format_zero _).symm
  have hnone : ns ++ moved a.length [] = ns := List.append_nil ns
  rw [hnone] at hrest
  refine ⟨hrun.trans hrest, fun err more hfails => ?_⟩
  obtain ⟨offset, hin, hdamage⟩ := damageAt_of_read hb hfails
  exact ⟨offset, hin, hdamage, hdamage.movedBy⟩

/-- Whether two runs come to the same can be seen from their ends. -/
instance decidableEqResult {ε σ α : Type} [DecidableEq ε] [DecidableEq σ]
    [DecidableEq α] : DecidableEq (EStateM.Result ε σ α)
  | .ok a s, .ok b t => decidable_of_iff (a = b ∧ s = t) (by simp)
  | .error a s, .error b t => decidable_of_iff (a = b ∧ s = t) (by simp)
  | .ok _ _, .error _ _ => .isFalse nofun
  | .error _ _, .ok _ _ => .isFalse nofun

/-- Two commits, each with its frame, and behind them the beginning of a
third that was torn, or bytes that are no frame at all. -/
theorem read_append_frames :
    let a := frame newestFormat (payloadBytes ⟨⟨3⟩, []⟩)
    let b := frame newestFormat (payloadBytes ⟨⟨4⟩, []⟩)
    (read (.memory (a ++ (b ++ [0x43]))) note).run []
        = .ok ⟨2, 62, 1, 1⟩ [(0, ⟨⟨3⟩, []⟩), (31, ⟨⟨4⟩, []⟩)]
      ∧ (read (.memory (a ++ (b ++ List.replicate 15 0))) note).run []
        = .error (.corrupt 62 .badMagic)
          [(0, ⟨⟨3⟩, []⟩), (31, ⟨⟨4⟩, []⟩)] := by
  intro a b
  have hread : (read (.memory a) note).run []
      = .ok ⟨1, 31, 0, 1⟩ [(0, ⟨⟨3⟩, []⟩)] := by decide +kernel
  have htorn : (read (.memory (b ++ [0x43])) note).run []
      = .ok ⟨1, 31, 1, 1⟩ [(0, ⟨⟨4⟩, []⟩)] := by decide +kernel
  have hbad : (read (.memory (b ++ List.replicate 15 0)) note).run []
      = .error (.corrupt 31 .badMagic) [(0, ⟨⟨4⟩, []⟩)] := by decide +kernel
  have hlength : a.length = 31 := by decide +kernel
  refine ⟨?_, ?_⟩
  · rw [(read_append hread rfl _).1, htorn, hlength]
    rfl
  · rw [(read_append hread rfl _).1, hbad, hlength]
    rfl

end History

end Colonnade
