/-
A file in the place of memory. A store in a file remembers how long the file
is and goes by that, and what it holds is on a volume, where it is found
again by whoever opens the file next; a store in memory is its bytes. Calls
on the one and on the other are answered alike, and closing the file and
opening it again between them makes no difference.

One thing keeps the two together: the length that the file's opener goes by
is that of what the volume has under the path (`Filed.Holds`). Each call
keeps it so, and opening makes it so.

Ranges are told from the size with an addition that stops at the largest
size, so a store of that very size would take any range for one that ends
within it. No memory is so large.

Chain: on what `Host.Volume` says of opening; it knows of no log.
-/
import Colonnade.Proofs.Host.Volume
import Colonnade.Store
import Mathlib.Data.List.Infix

namespace Colonnade

-- =============================================================== calls

/-- What a store can be asked for. -/
inductive StoreCall where
  | append (data : Bytes)
  | readAt (offset length : Nat)
  | flush
  | sync
  | size
  | truncate (n : Nat)
deriving DecidableEq, Repr

/-- What a store answers if it does not refuse. -/
inductive StoreAnswer where
  | appendedAt (offset : Nat)
  | found (bytes : Bytes)
  | size (n : Nat)
  | done
deriving DecidableEq, Repr

/-- The outcome of an operation as an answer, and the store that it leaves. -/
def answered {α : Type} (f : α → StoreAnswer) :
    EStateM.Result StoreFault Store α → Except StoreFault StoreAnswer × Store
  | .ok a s => (.ok (f a), s)
  | .error fault s => (.error fault, s)

/-- The answer to a call, and the store afterwards. -/
def StoreCall.on (s : Store) :
    StoreCall → Except StoreFault StoreAnswer × Store
  | append data => answered .appendedAt (s.append data)
  | readAt offset length => ((s.readAt offset length).map .found, s)
  | flush => answered (fun _ => .done) (Store.flush s)
  | sync => answered (fun _ => .done) (Store.sync s)
  | size => (.ok (.size s.size), s)
  | truncate n => answered (fun _ => .done) (s.truncate n)

/-- The answers to calls one after the other, and the store afterwards. -/
def Store.through (s : Store) :
    List StoreCall → List (Except StoreFault StoreAnswer) × Store
  | [] => ([], s)
  | c :: cs =>
    let (answer, s) := c.on s
    let (answers, s) := s.through cs
    (answer :: answers, s)

namespace Store

variable {bytes : Bytes}

/-- Of a file that was just opened a range is read as of memory, which holds
all of a range that it says is there. -/
theorem readAt_opened (hfits : bytes.length < maxSize)
    (offset length : Nat) :
    (file (.opened bytes)).readAt offset length
      = (memory bytes).readAt offset length := by
  show (if bytes.length < offset || bytes.length < addSizes offset length then
      _ else _) = if bytes.length < offset
        || bytes.length < addSizes offset length then _ else _
  split
  · rfl
  next hin =>
    obtain ⟨hoffset, hend⟩ : offset ≤ bytes.length
        ∧ addSizes offset length ≤ bytes.length := by simpa using hin
    have hrange : offset + length ≤ bytes.length := by
      unfold addSizes at hend
      omega
    by_cases hzero : length = 0
    · subst hzero
      simp
    · have hall : ((bytes.drop offset).take length).length = length := by
        rw [List.length_take, List.length_drop]
        omega
      rw [if_neg (by simpa using hzero)]
      show (if ((bytes.drop offset).take length).length < length then
        _ else _) = _
      rw [if_neg (by omega)]
      rfl

/-- An append to a file that was just opened leaves it as if it was opened
then. -/
theorem append_opened (data : Bytes) :
    (file (.opened bytes)).append data
      = .ok bytes.length (file (.opened (bytes ++ data))) := by
  cases data with
  | nil =>
      rw [List.append_nil]
      rfl
  | cons b data =>
      unfold OpenFile.opened
      rw [List.length_append]
      rfl

/-- A cut of it does too. -/
theorem truncate_opened {n : Nat} (hn : n ≤ bytes.length) :
    (file (.opened bytes)).truncate n
      = .ok () (file (.opened (bytes.take n))) := by
  have hresize : OpenFile.resize bytes n = bytes.take n := by
    unfold OpenFile.resize
    rw [Nat.sub_eq_zero_of_le hn]
    exact List.append_nil _
  have hlength : (bytes.take n).length = n := List.length_take_of_le hn
  show (if bytes.length < n then _ else
    EStateM.Result.ok () (file ⟨OpenFile.resize bytes n, n⟩)) = _
  rw [if_neg (Nat.not_lt.2 hn), hresize]
  unfold OpenFile.opened
  rw [hlength]

end Store

/-- A file that was just opened answers a call as memory does, and comes to
what memory comes to. -/
theorem StoreCall.on_opened (c : StoreCall) {bytes : Bytes}
    (hfits : bytes.length < maxSize) :
    ∃ answer bytes', c.on (.memory bytes) = (answer, .memory bytes')
      ∧ c.on (.file (.opened bytes)) = (answer, .file (.opened bytes')) := by
  cases c with
  | append data =>
      refine ⟨.ok (.appendedAt bytes.length), bytes ++ data, rfl, ?_⟩
      exact congrArg (answered _) (Store.append_opened data)
  | readAt offset length =>
      have hread := Store.readAt_opened hfits offset length
      exact ⟨_, bytes, rfl, congrArg (fun found =>
        (Except.map StoreAnswer.found found, Store.file (.opened bytes))) hread⟩
  | flush => exact ⟨_, _, rfl, rfl⟩
  | sync => exact ⟨_, _, rfl, rfl⟩
  | size => exact ⟨_, _, rfl, rfl⟩
  | truncate n =>
      by_cases hn : n ≤ bytes.length
      · have hmemory : (Store.memory bytes).truncate n
            = .ok () (.memory (bytes.take n)) := if_neg (Nat.not_lt.2 hn)
        exact ⟨_, bytes.take n, congrArg (answered _) hmemory,
          congrArg (answered _) (Store.truncate_opened hn)⟩
      · have hbeyond : bytes.length < n := Nat.lt_of_not_le hn
        have hmemory : (Store.memory bytes).truncate n
            = .error (.truncateBeyondEnd n bytes.length) (.memory bytes) :=
          if_pos hbeyond
        have hfile : (Store.file (.opened bytes)).truncate n
            = .error (.truncateBeyondEnd n bytes.length)
              (.file (.opened bytes)) := if_pos hbeyond
        exact ⟨_, bytes, congrArg (answered _) hmemory,
          congrArg (answered _) hfile⟩

-- ========================================================== on a volume

/-- A file that is open: the volume it is on, its place there, and how long
its opener takes it to be. -/
structure Filed where
  volume : Volume
  place : Place
  size : Nat

namespace Filed

/-- Opens the file under a path. -/
def opening (path : String) (v : Volume) : Except VolumeFault Filed :=
  match (Volume.openFile path).run v with
  | .ok (place, bytes) volume => .ok ⟨volume, place, bytes.length⟩
  | .error fault _ => .error fault

/-- The file as a store. -/
def store (f : Filed) : Store :=
  .file ⟨(f.volume.contentsAt? f.place).getD [], f.size⟩

/-- The answer to a call, and the file afterwards. -/
def on (f : Filed) (c : StoreCall) : Except StoreFault StoreAnswer × Filed :=
  let (answer, store) := c.on f.store
  (answer,
    { f with
      volume := f.volume.put f.place (.file store.bytes)
      size := store.size })

/-- A call, or closing the file and opening it again. -/
inductive Move where
  | call (c : StoreCall)
  | reopen
deriving DecidableEq, Repr

/-- The call, if a move is one. -/
def Move.call? : Move → Option StoreCall
  | call c => some c
  | reopen => none

/-- The answers to the calls among some moves, and the file afterwards. -/
def through (path : String) (f : Filed) :
    List Move →
      Except VolumeFault (List (Except StoreFault StoreAnswer) × Filed)
  | [] => .ok ([], f)
  | .call c :: ms => do
    let (answer, f) := f.on c
    let (answers, f) ← f.through path ms
    return (answer :: answers, f)
  | .reopen :: ms => do (← opening path f.volume).through path ms

variable {f : Filed} {path : String} {bytes : Bytes}

/-- What the volume has under the path, at the place of the file, and as long
as its opener takes it to be. -/
structure Holds (f : Filed) (path : String) (bytes : Bytes) : Prop where
  file : f.volume.FileAt path f.place bytes
  size_eq : f.size = bytes.length

/-- A file that holds bytes is a store of them. -/
theorem Holds.store_eq (h : f.Holds path bytes) :
    f.store = .file (.opened bytes) := by
  have hcontents : f.volume.contentsAt? f.place = some bytes := by
    unfold Volume.contentsAt?
    rw [h.file.entry]
  unfold store OpenFile.opened
  rw [hcontents, h.size_eq]
  rfl

/-- A call is answered as memory answers it, and keeps the file. -/
theorem Holds.call (h : f.Holds path bytes) (hfits : bytes.length < maxSize)
    (c : StoreCall) :
    ∃ answer bytes' f', c.on (.memory bytes) = (answer, .memory bytes')
      ∧ f.on c = (answer, f') ∧ f'.place = f.place
      ∧ f'.Holds path bytes' := by
  obtain ⟨answer, bytes', hmemory, hfile⟩ := c.on_opened hfits
  refine ⟨answer, bytes',
    ⟨f.volume.put f.place (.file bytes'), f.place, bytes'.length⟩, hmemory,
    ?_, rfl, h.file.put bytes', rfl⟩
  unfold on
  rw [h.store_eq, hfile]
  rfl

/-- Opening it again finds it as it was left. -/
theorem Holds.reopen (h : f.Holds path bytes) :
    opening path f.volume = .ok f := by
  unfold opening
  rw [h.file.run_openFile]
  dsimp only
  rw [← h.size_eq]

/-- An opened file holds what is under its path. -/
theorem holds_of_opening {v : Volume} (h : opening path v = .ok f) :
    f.Holds path ((v.read? path).getD []) := by
  have hends := Volume.openFile_ends v path v rfl
  unfold opening at h
  cases hrun : (Volume.openFile path).run v with
  | error fault w =>
      rw [hrun] at h
      cases h
  | ok opened w =>
      rw [hrun] at h hends
      obtain ⟨-, hfile, hbytes⟩ := hends
      obtain rfl := Except.ok.inj h
      rw [← hbytes]
      exact ⟨hfile, rfl⟩

/-- Whether memory stays below the largest size at each step of the way. -/
def Fits (bytes : Bytes) (cs : List StoreCall) : Prop :=
  ∀ before, before <+: cs →
    ((Store.memory bytes).through before).2.size < maxSize

/-- Bytes that calls fit are fewer than the largest size. -/
theorem Fits.head {cs : List StoreCall} (h : Fits bytes cs) :
    bytes.length < maxSize :=
  h [] (List.nil_prefix)

/-- What fits a list of calls fits the rest behind the first. -/
theorem Fits.tail {c : StoreCall} {cs : List StoreCall} {bytes' : Bytes}
    {answer : Except StoreFault StoreAnswer} (h : Fits bytes (c :: cs))
    (hc : c.on (.memory bytes) = (answer, .memory bytes')) :
    Fits bytes' cs := by
  intro before hbefore
  have hsize := h (c :: before) (by simpa using hbefore)
  unfold Store.through at hsize
  rw [hc] at hsize
  exact hsize

/-- From a file that holds what memory holds, all calls are answered as
memory answers them. -/
theorem Holds.through (h : f.Holds path bytes) {ms : List Move}
    (hfits : Fits bytes (ms.filterMap Move.call?)) :
    ∃ answers bytes' f',
      (Store.memory bytes).through (ms.filterMap Move.call?)
        = (answers, .memory bytes')
      ∧ f.through path ms = .ok (answers, f')
      ∧ f'.place = f.place ∧ f'.Holds path bytes' := by
  induction ms generalizing f bytes with
  | nil => exact ⟨[], bytes, f, rfl, rfl, rfl, h⟩
  | cons m ms ih =>
      cases m with
      | call c =>
          obtain ⟨answer, bytes', f', hmemory, hfile, hplace, h'⟩ :=
            h.call hfits.head c
          obtain ⟨answers, bytes'', f'', hmemory', hfile', hplace', h''⟩ :=
            ih h' (hfits.tail hmemory)
          refine ⟨answer :: answers, bytes'', f'', ?_, ?_,
            hplace'.trans hplace, h''⟩
          · show (Store.memory bytes).through (c :: _) = _
            unfold Store.through
            rw [hmemory]
            dsimp only
            rw [hmemory']
          · unfold Filed.through
            rw [hfile]
            dsimp only
            rw [hfile']
            rfl
      | reopen =>
          obtain ⟨answers, bytes', f', hmemory, hfile, hrest⟩ := ih h hfits
          refine ⟨answers, bytes', f', hmemory, ?_, hrest⟩
          unfold Filed.through
          rw [h.reopen]
          exact hfile

/-- A store in a file answers as one in memory that starts with what the file
holds, which is nothing if the file is new. Whatever is called, every answer
is the same and the same bytes are held afterwards; the file can be opened
again each time it is closed, and that changes no answer. -/
theorem answers_as_memory {v : Volume} (hopen : opening path v = .ok f)
    (ms : List Move)
    (hfits : Fits ((v.read? path).getD []) (ms.filterMap Move.call?)) :
    ∃ answers bytes f',
      (Store.memory ((v.read? path).getD [])).through
          (ms.filterMap Move.call?) = (answers, .memory bytes)
      ∧ f.through path ms = .ok (answers, f')
      ∧ f'.volume.read? path = some bytes
      ∧ f'.store.bytes = bytes ∧ f'.size = bytes.length := by
  obtain ⟨answers, bytes, f', hmemory, hfile, -, hholds⟩ :=
    (holds_of_opening hopen).through hfits
  refine ⟨answers, bytes, f', hmemory, hfile, hholds.file.read?, ?_,
    hholds.size_eq⟩
  rw [hholds.store_eq]
  rfl

/-- Three bytes in a new file, which is closed and opened again. -/
def threeBytes : List Move :=
  [.call (.append [1, 2, 3]), .call (.readAt 1 2), .reopen,
    .call (.readAt 2 5), .call (.truncate 9), .call (.truncate 1),
    .call (.append []), .reopen, .call .size]

theorem answers_as_memory_threeBytes :
    ∃ f f', opening "store.bin" {} = .ok f
      ∧ f.through "store.bin" threeBytes
        = .ok ([.ok (.appendedAt 0), .ok (.found [2, 3]),
          .error (.readPastEnd 2 5 3), .error (.truncateBeyondEnd 9 3),
          .ok .done, .ok (.appendedAt 1), .ok (.size 1)], f')
      ∧ f'.volume.read? "store.bin" = some [1] := by
  have hnew : Volume.read? {} "store.bin" = none := by decide +kernel
  have hopens : (opening "store.bin" {}).isOk = true := by decide +kernel
  have hfits : Fits ((Volume.read? {} "store.bin").getD [])
      (threeBytes.filterMap Move.call?) := by
    rw [hnew]
    intro before hbefore
    have hshort : ∀ cs ∈ (threeBytes.filterMap Move.call?).inits,
        ((Store.memory []).through cs).2.size < maxSize := by decide
    exact hshort before ((List.mem_inits _ _).2 hbefore)
  cases hopen : opening "store.bin" {} with
  | error fault =>
      rw [hopen] at hopens
      cases hopens
  | ok f =>
      obtain ⟨answers, bytes, f', hmemory, hfile, hread, -, -⟩ :=
        answers_as_memory hopen threeBytes hfits
      rw [hnew] at hmemory
      cases hmemory
      exact ⟨f, f', rfl, hfile, hread⟩

end Filed

end Colonnade
