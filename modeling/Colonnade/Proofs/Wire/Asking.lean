/-
Readers that tell what they ask for. A `Reader` is a function, and what it
looked at on the way cannot be told from what it gives. `Asking` is the same
reader written down: so many bytes, bytes after their stored count, whether
the payload is at its end, and what follows each answer.

`Asking.read` makes the reader of what is written down. Each reader of
records is written down here once more, step by step, and `read_record` says
that what is made of it is the reader that decoding uses.

`Asking.trace` answers the requests that are made of a payload, one by one,
and keeps them. Each is checked against the length of the payload before
a byte is taken for it. `run_read` says that this comes to what the reader
comes to, and `within_trace` what the requests are, whoever makes them.

Chain: `Wire.Bounded` says it of decoding.
-/
import Colonnade.Proofs.Wire.Spelling

namespace Colonnade.Wire

variable {α β : Type} {p : Bytes}

/-- A reader as its requests, and what follows each answer. -/
inductive Asking (α : Type) where
  | gives (a : α)
  | fails (what : Corruption)
  | takes (n : Nat) (next : Bytes → Asking α)
  | takesCounted (next : Bytes → Asking α)
  | looks (next : Bool → Asking α)

namespace Asking

/-- One reader, and then another that may depend on what the first gave. -/
def andThen (x : Asking α) (f : α → Asking β) : Asking β :=
  match x with
  | gives a => f a
  | fails what => fails what
  | takes n next => takes n fun bs => (next bs).andThen f
  | takesCounted next => takesCounted fun bs => (next bs).andThen f
  | looks next => looks fun ended => (next ended).andThen f

instance instMonad : Monad Asking where
  pure := gives
  bind := andThen

/-- The reader that asks for this. -/
def read : Asking α → Reader α
  | gives a => pure a
  | fails what => Reader.fail what
  | takes n next => do (next (← Reader.bytes n)).read
  | takesCounted next => do
    let n ← Reader.u64
    (next (← Reader.bytes n.toNat)).read
  | looks next => do (next (← get).isEmpty).read

-- ================================================== what readers ask for

/-- So many bytes. -/
def bytes (n : Nat) : Asking Bytes := takes n gives

/-- Bytes after their count. -/
def counted : Asking Bytes := takesCounted gives

/-- A natural number of so many bytes. -/
def nat (width : Nat) : Asking Nat := leValue <$> bytes width

/-- One byte. -/
def u8 : Asking UInt8 := UInt8.ofNat <$> nat 1

/-- A 32-bit word. -/
def u32 : Asking UInt32 := UInt32.ofNat <$> nat 4

/-- A 64-bit word. -/
def u64 : Asking UInt64 := UInt64.ofNat <$> nat 8

/-- A signed 32-bit word. -/
def i32 : Asking Int32 := UInt32.toInt32 <$> u32

/-- A signed 64-bit word. -/
def i64 : Asking Int64 := UInt64.toInt64 <$> u64

/-- A text after the count of its bytes. -/
def text : Asking String := do
  match Utf8.decode? (← counted) with
  | some s => pure s
  | none => fails .notUtf8

def table : Asking TableKey := TableKey.mk <$> u32

def column : Asking ColumnKey := ColumnKey.mk <$> i64

/-- An object key, which must not be negative. -/
def object : Asking ObjectKey := do
  let raw ← i64
  match ObjectKey.ofRaw? raw with
  | some k => pure k
  | none => fails (.negativeKey raw)

def columnType : Asking ColumnType := do
  let code ← u8
  match ColumnType.ofCode? code.toNat with
  | some t => pure t
  | none => fails (.unknownColumnType code)

/-- A declaration; its target is asked for if its flags say so. -/
def spec : Asking ColumnSpec := do
  let name ← text
  let type ← columnType
  let flags ← u8
  let s := ColumnSpec.make name type (flags &&& nullableFlag != 0)
    (flags &&& listFlag != 0)
  if flags &&& targetFlag != 0 then
    return s.withTarget (← table)
  else return s

/-- A timestamp, whose parts must agree. -/
def timestamp : Asking Timestamp := do
  let seconds ← i64
  let nanoseconds ← i32
  match Timestamp.make seconds nanoseconds with
  | .ok t => pure t
  | .error why => fails (.badTimestamp why)

/-- The content of a value of a type. -/
def content : ColumnType → Asking Value
  | .int => Value.int <$> i64
  | .bool => (fun b => Value.bool (b != 0)) <$> u8
  | .string => Value.string <$> text
  | .binary => Value.binary <$> counted
  | .timestamp => Value.timestamp <$> timestamp
  | .float => (fun b => Value.float ⟨b⟩) <$> u32
  | .double => (fun b => Value.double ⟨b⟩) <$> u64
  | .link => Value.link <$> object
  | .linkList => fails .linkListValue

def value : Asking Value := do
  let tag ← u8
  if tag == nullTag then
    return .null
  match ColumnType.ofCode? tag.toNat with
  | some t => content t
  | none => fails (.unknownValueTag tag)

/-- The fields of the operation with a number. -/
def fields (op : UInt8) : Asking Instruction := do
  match op with
  | 1 => return .addTable (← table) (← text)
  | 2 => return .removeTable (← table)
  | 3 => return .addColumn (← table) (← column) (← spec)
  | 4 => return .removeColumn (← table) (← column)
  | 5 => return .createObject (← table) (← object)
  | 6 => return .removeObject (← table) (← object)
  | 7 => return .set (← table) (← object) (← column) (← value)
  | 8 =>
    return .listInsert (← table) (← object) (← column) (← u64) (← value)
  | 9 => return .listSet (← table) (← object) (← column) (← u64) (← value)
  | 10 => return .listRemove (← table) (← object) (← column) (← u64)
  | 11 => return .listClear (← table) (← object) (← column)
  | n => fails (.unknownOpcode n)

/-- One instruction. -/
def instruction : Asking Instruction := do
  fields (← u8)

/-- So many instructions. -/
def instructions : Nat → Asking (List Instruction)
  | 0 => pure []
  | n + 1 => do
    let i ← instruction
    let is ← instructions n
    return i :: is

/-- A record, and whether anything is left behind it. -/
def record : Asking CommitRecord := do
  let version ← u64
  let count ← u32
  let is ← instructions count.toNat
  if !(← looks gives) then
    fails .trailingBytes
  return ⟨⟨version⟩, is⟩

-- ==================================================== what is forgotten

@[simp]
theorem read_pure (a : α) : (pure a : Asking α).read = pure a := rfl

@[simp]
theorem read_fails (what : Corruption) :
    (fails what : Asking α).read = Reader.fail what := rfl

/-- The readers of a sequence are the sequence of the readers. -/
@[simp]
theorem read_bind (x : Asking α) (f : α → Asking β) :
    (x >>= f).read = x.read >>= fun a => (f a).read := by
  show (x.andThen f).read = _
  induction x with
  | gives a => exact (pure_bind (m := Reader) a fun a => (f a).read).symm
  | fails what => rfl
  | takes n next ih => simp only [andThen, read, ih, bind_assoc]
  | takesCounted next ih => simp only [andThen, read, ih, bind_assoc]
  | looks next ih => simp only [andThen, read, ih, bind_assoc]

@[simp]
theorem read_map (f : α → β) (x : Asking α) :
    (f <$> x).read = f <$> x.read :=
  (read_bind x (gives ∘ f)).trans (bind_pure_comp f x.read)

@[simp]
theorem read_bytes (n : Nat) : (bytes n).read = Reader.bytes n :=
  bind_pure (Reader.bytes n)

@[simp]
theorem read_counted : counted.read = Reader.counted := by
  simp only [counted, read, bind_pure]
  rfl

@[simp]
theorem read_looks : (looks gives).read = (do return (← get).isEmpty) := rfl

@[simp]
theorem read_nat (width : Nat) : (nat width).read = Reader.nat width := by
  simp only [nat, read_map, read_bytes]
  rfl

@[simp]
theorem read_u8 : u8.read = Reader.u8 := by
  simp only [u8, read_map, read_nat]
  rfl

@[simp]
theorem read_u32 : u32.read = Reader.u32 := by
  simp only [u32, read_map, read_nat]
  rfl

@[simp]
theorem read_u64 : u64.read = Reader.u64 := by
  simp only [u64, read_map, read_nat]
  rfl

@[simp]
theorem read_i32 : i32.read = Reader.i32 := by
  simp only [i32, read_map, read_u32]
  rfl

@[simp]
theorem read_i64 : i64.read = Reader.i64 := by
  simp only [i64, read_map, read_u64]
  rfl

@[simp]
theorem read_text : text.read = Reader.text := by
  simp only [text, read_bind, read_counted]
  refine bind_congr fun bs => ?_
  cases Utf8.decode? bs <;> rfl

@[simp]
theorem read_table : table.read = Reader.table := by
  simp only [table, read_map, read_u32]
  rfl

@[simp]
theorem read_column : column.read = Reader.column := by
  simp only [column, read_map, read_i64]
  rfl

@[simp]
theorem read_object : object.read = Reader.object := by
  simp only [object, read_bind, read_i64]
  refine bind_congr fun raw => ?_
  cases ObjectKey.ofRaw? raw <;> rfl

@[simp]
theorem read_columnType : columnType.read = Reader.columnType := by
  simp only [columnType, read_bind, read_u8]
  refine bind_congr fun code => ?_
  cases ColumnType.ofCode? code.toNat <;> rfl

@[simp]
theorem read_spec : spec.read = Reader.spec := by
  simp only [spec, read_bind, read_text, read_columnType, read_u8]
  refine bind_congr fun name => bind_congr fun type =>
    bind_congr fun flags => ?_
  split
  next => simp only [read_bind, read_table, read_pure]
  next => rfl

@[simp]
theorem read_timestamp : timestamp.read = Reader.timestamp := by
  simp only [timestamp, read_bind, read_i64, read_i32]
  refine bind_congr fun seconds => bind_congr fun nanoseconds => ?_
  cases Timestamp.make seconds nanoseconds <;> rfl

/-- The content of a value is read the same for every type. -/
@[simp]
theorem read_content (t : ColumnType) :
    (content t).read = Reader.content t := by
  cases t <;> simp [content, Reader.content]

@[simp]
theorem read_value : value.read = Reader.value := by
  simp only [value, read_bind, read_u8]
  refine bind_congr fun tag => ?_
  split
  · rfl
  · cases ColumnType.ofCode? tag.toNat with
    | some t => exact read_content t
    | none => rfl

@[simp]
theorem read_fields (op : UInt8) : (fields op).read = Reader.fields op := by
  unfold fields Reader.fields
  split <;> simp

@[simp]
theorem read_instruction : instruction.read = Reader.instruction := by
  simp only [instruction, read_bind, read_u8, read_fields]
  rfl

/-- Instructions that tell what they ask for are read as instructions. -/
@[simp]
theorem read_instructions (n : Nat) :
    (instructions n).read = Reader.instructions n := by
  induction n with
  | zero => rfl
  | succ n ih =>
      simp only [instructions, read_bind, read_instruction, ih, read_pure]
      rfl

/-- What decoding reads, the requests forgotten. -/
theorem read_record : record.read = Reader.record := by
  simp only [record, Reader.record, read_bind, read_u64, read_u32,
    read_instructions, read_looks, bind_assoc, pure_bind]
  refine bind_congr fun version => bind_congr fun count =>
    bind_congr fun is => bind_congr fun rest => ?_
  cases rest.isEmpty <;> simp

end Asking

-- ============================================================== requests

/-- So many bytes asked for at a cursor. The number of them was read off the
payload, or it was known. -/
structure Request where
  cursor : Nat
  count : Nat
  stored : Bool := false
deriving DecidableEq

/-- How many bytes requests are for, all together. -/
def Request.total (rs : List Request) : Nat :=
  rs.foldr (fun r n => r.count + n) 0

/-- One more request in front is for so many bytes more. -/
theorem Request.total_cons (r : Request) (rs : List Request) :
    total (r :: rs) = r.count + total rs := rfl

/-- Where the cursor would be if the bytes were there. -/
def Request.stop (r : Request) : Nat := r.cursor + r.count

/-- Whether the eight bytes in front of what is asked for spell the count. -/
def Request.Counted (p : Bytes) (r : Request) : Prop :=
  8 ≤ r.cursor ∧ r.count = leValue ((p.drop (r.cursor - 8)).take 8)

/-- What comes of a request: the bytes and what follows from there, if they
end inside the payload. -/
def Request.answered (p : Bytes) (r : Request)
    (next : Bytes → List Request × Except Corruption (α × Nat)) :
    List Request × Except Corruption (α × Nat) :=
  if r.stop ≤ p.length then
    let (rs, out) := next ((p.drop r.cursor).take r.count)
    (r :: rs, out)
  else ([r], .error .unexpectedEnd)

/-- A request for what is there is answered. -/
theorem Request.answered_granted {r : Request} (hfits : r.stop ≤ p.length)
    (next : Bytes → List Request × Except Corruption (α × Nat)) :
    r.answered p next
      = (r :: (next ((p.drop r.cursor).take r.count)).1,
        (next ((p.drop r.cursor).take r.count)).2) :=
  if_pos hfits

/-- A request for more than is there is refused. -/
theorem Request.answered_refused {r : Request} (hno : ¬ r.stop ≤ p.length)
    (next : Bytes → List Request × Except Corruption (α × Nat)) :
    r.answered p next = ([r], .error .unexpectedEnd) :=
  if_neg hno

/-- What a reader asks of a payload from a cursor on, and what comes of
it: what it gives and where it leaves the cursor, or why it fails. -/
def Asking.trace (p : Bytes) (x : Asking α) (c : Nat) :
    List Request × Except Corruption (α × Nat) :=
  match x with
  | gives a => ([], .ok (a, c))
  | fails what => ([], .error what)
  | takes n next => Request.answered p ⟨c, n, false⟩ fun bs =>
    (next bs).trace p (c + n)
  | takesCounted next => Request.answered p ⟨c, 8, false⟩ fun count =>
    Request.answered p ⟨c + 8, leValue count, true⟩ fun bs =>
      (next bs).trace p (c + 8 + leValue count)
  | looks next => (next (c == p.length)).trace p c

/-- So many bytes, if they are there. -/
theorem run_bytes (n : Nat) (bs : Bytes) :
    (Reader.bytes n).run bs =
      if n ≤ bs.length then .ok (bs.take n, bs.drop n)
      else .error .unexpectedEnd := by
  unfold Reader.bytes
  dsimp only [StateT.run]
  rw [takeExactly_eq]
  by_cases hn : n ≤ bs.length
  · rw [if_pos hn, if_pos hn]
  · rw [if_neg hn, if_neg hn]

/-- A number of so many bytes fits them. -/
theorem leValue_take_lt (width : Nat) (bs : Bytes) :
    leValue (bs.take width) < 256 ^ width :=
  Nat.lt_of_lt_of_le (leValue_lt (bs.take width))
    (Nat.pow_le_pow_right (by decide) (List.length_take_le ..))

/-- What requests are that are made of a payload from a cursor on. -/
structure Within (p : Bytes) (c : Nat) (rs : List Request)
    (out : Except Corruption (α × Nat)) : Prop where
  /-- Each is made where the one before ended. -/
  starts : ∀ k r, rs[k]? = some r →
    r.cursor = c + Request.total (rs.take k)
  /-- None is made outside the payload. -/
  inside : ∀ r ∈ rs, r.cursor ≤ p.length
  /-- One for more than there is ends the reading. -/
  beyond : ∀ k r, rs[k]? = some r → p.length < r.stop →
    rs.length = k + 1 ∧ out = .error .unexpectedEnd
  /-- A count that was read is the number in front of its bytes. -/
  counts : ∀ r ∈ rs, r.stored = true → r.Counted p
  /-- A reading that succeeds took all that it asked for and nothing else. -/
  ends : ∀ a stop, out = .ok (a, stop) →
    stop = c + Request.total rs ∧ stop ≤ p.length

/-- Where nothing was asked for, the cursor stays where it was. -/
theorem Within.nothing {c : Nat} {out : Except Corruption (α × Nat)}
    (hc : c ≤ p.length) (hout : ∀ a stop, out = .ok (a, stop) → stop = c) :
    Within p c [] out where
  starts := nofun
  inside := nofun
  beyond := nofun
  counts := nofun
  ends a stop h := by
    obtain rfl := hout a stop h
    exact ⟨rfl, hc⟩

/-- What is asked for behind a request that is granted. -/
theorem Within.granted {r : Request} {rs : List Request}
    {out : Except Corruption (α × Nat)} (hfits : r.stop ≤ p.length)
    (hcount : r.stored = true → r.Counted p) (h : Within p r.stop rs out) :
    Within p r.cursor (r :: rs) out where
  starts k q hq := by
    cases k with
    | zero =>
        cases hq
        rfl
    | succ k =>
        have hstart := h.starts k q hq
        simp only [Request.stop] at hstart
        rw [List.take_succ_cons, Request.total_cons]
        omega
  inside := by
    have hin : r.cursor ≤ p.length := Nat.le_trans (Nat.le_add_right ..) hfits
    exact List.forall_mem_cons.2 ⟨hin, h.inside⟩
  beyond k q hq hbeyond := by
    cases k with
    | zero =>
        cases hq
        omega
    | succ k =>
        obtain ⟨hlast, hout⟩ := h.beyond k q hq hbeyond
        exact ⟨congrArg (· + 1) hlast, hout⟩
  counts := List.forall_mem_cons.2 ⟨hcount, h.counts⟩
  ends a stop hout := by
    obtain ⟨htotal, hstop⟩ := h.ends a stop hout
    simp only [Request.stop] at htotal
    rw [Request.total_cons]
    exact ⟨by omega, hstop⟩

/-- A request that is refused is the last. -/
theorem Within.refused {r : Request} (hc : r.cursor ≤ p.length)
    (hcount : r.stored = true → r.Counted p) :
    Within (α := α) p r.cursor [r] (.error .unexpectedEnd) where
  starts k q hq := by
    cases k with
    | zero =>
        cases hq
        rfl
    | succ k => cases hq
  inside := by simpa using hc
  beyond k q hq _ := by
    cases k with
    | zero => exact ⟨rfl, rfl⟩
    | succ k => cases hq
  counts := by simpa using hcount
  ends := nofun

/-- What a request and what follows it are, if what follows is so. -/
theorem Within.answered {r : Request} (hc : r.cursor ≤ p.length)
    (hcount : r.stored = true → r.Counted p)
    {next : Bytes → List Request × Except Corruption (α × Nat)}
    (hnext : r.stop ≤ p.length →
      Within p r.stop (next ((p.drop r.cursor).take r.count)).1
        (next ((p.drop r.cursor).take r.count)).2) :
    Within p r.cursor (r.answered p next).1 (r.answered p next).2 := by
  by_cases hfits : r.stop ≤ p.length
  · rw [Request.answered_granted hfits]
    exact .granted hfits hcount (hnext hfits)
  · rw [Request.answered_refused hfits]
    exact .refused hc hcount

namespace Asking

/-- Whatever is asked, the cursor never goes back and never leaves the
payload. -/
theorem within_trace (x : Asking α) {c : Nat} (hc : c ≤ p.length) :
    Within p c (x.trace p c).1 (x.trace p c).2 := by
  induction x generalizing c with
  | gives a =>
      refine .nothing hc fun b stop h => ?_
      cases h
      rfl
  | fails what => exact .nothing hc nofun
  | takes n next ih =>
      exact .answered (r := ⟨c, n, false⟩) hc nofun fun hfits => ih _ hfits
  | takesCounted next ih =>
      refine .answered (r := ⟨c, 8, false⟩) hc nofun fun hcount => ?_
      refine .answered (r := ⟨c + 8, _, true⟩) hcount (fun _ => ?_)
        fun hfits => ih _ hfits
      refine ⟨Nat.le_add_left .., ?_⟩
      dsimp only
      rw [Nat.add_sub_cancel]
  | looks next ih => exact ih _ hc

-- ==================================================== what is answered

/-- Bytes that are read are those that a request for them is given. -/
theorem run_bytes_bind {r : Request} {f : Bytes → Reader α}
    {next : Bytes → List Request × Except Corruption (α × Nat)}
    (hc : r.cursor ≤ p.length)
    (hnext : r.stop ≤ p.length →
      (f ((p.drop r.cursor).take r.count)).run (p.drop r.stop)
        = (next ((p.drop r.cursor).take r.count)).2.map
          fun (a, stop) => (a, p.drop stop)) :
    (Reader.bytes r.count >>= f).run (p.drop r.cursor)
      = (r.answered p next).2.map fun (a, stop) => (a, p.drop stop) := by
  have hstop : r.stop ≤ p.length ↔ r.count ≤ p.length - r.cursor := by
    unfold Request.stop
    omega
  rw [StateT.run_bind, run_bytes, List.length_drop]
  by_cases hfits : r.stop ≤ p.length
  · rw [Request.answered_granted hfits, if_pos (hstop.1 hfits),
      List.drop_drop]
    exact hnext hfits
  · rw [Request.answered_refused hfits, if_neg (mt hstop.2 hfits)]
    rfl

/-- A reader comes to what its requests come to. -/
theorem run_read (x : Asking α) {c : Nat} (hc : c ≤ p.length) :
    x.read.run (p.drop c)
      = (x.trace p c).2.map fun (a, stop) => (a, p.drop stop) := by
  induction x generalizing c with
  | gives a => rfl
  | fails what => rfl
  | takes n next ih =>
      exact run_bytes_bind (r := ⟨c, n, false⟩) hc fun hfits => ih _ hfits
  | takesCounted next ih =>
      have hu64 : Reader.u64 = (fun count => UInt64.ofNat (leValue count))
          <$> Reader.bytes 8 := by
        simp only [Reader.u64, Reader.nat, Functor.map_map]
      simp only [read, hu64, bind_map_left]
      refine run_bytes_bind (r := ⟨c, 8, false⟩) hc fun hcount => ?_
      dsimp only
      rw [UInt64.toNat_ofNat_of_lt' (leValue_take_lt 8 _)]
      exact run_bytes_bind (r := ⟨c + 8, _, true⟩) hcount
        fun hfits => ih _ hfits
  | looks next ih =>
      have hended : (p.drop c).isEmpty = (c == p.length) := by
        rw [Bool.eq_iff_iff, List.isEmpty_iff, List.drop_eq_nil_iff,
          beq_iff_eq]
        omega
      show (next (p.drop c).isEmpty).read.run (p.drop c) = _
      rw [hended]
      exact ih _ hc

end Asking

end Colonnade.Wire
