/-
Trials of isolation. A writer keeps a ledger whose amounts sum to zero in
every committed version: each commit adds two rows that cancel or removes
the two oldest, which were added together. Readers look at whatever version
they hold, check the sum, and move on.

Who takes the next turn is left to a list of turns, which stands for the
accidents of timing: any list is a possible course of events, and whatever
it leaves undone is done at the end. A sound engine lets no reader see a
sum other than zero under any list.

The second trial has writers that contend: each commit adds one row, and
none of the rows may be lost.

Chain: runs on `Engine.write` and `Engine.advance`; a `Violation` is what a
trial can find.
-/
import Colonnade.Engine.Lookup
import Colonnade.Handle.Object

namespace Colonnade.Trial

/-- What a trial of the ledger can find wrong. -/
inductive Violation where
  | unbalanced (seen : Version) (sum : Int64) (rows : Nat)
  | unreadable (seen : Version) (why : Error)
  | wentBack (last now : Version)
  | commitFailed (index : Nat) (why : Error)
  | finalVersion (found : Version)
  | finalSum (sum : Int64)
deriving DecidableEq

/-- The words for what is wrong. -/
def Violation.message : Violation → String
  | unbalanced v sum rows => s!"version {v}: sum {sum} over {rows} rows"
  | unreadable v why => s!"version {v}: {why}"
  | wentBack last now => s!"version went back from {last} to {now}"
  | commitFailed i why => s!"commit {i}: {why}"
  | finalVersion v => s!"unexpected final version {v}"
  | finalSum sum => s!"final sum {sum}"

namespace Ledger

/-- The name of the table. -/
def tableName : String := "ledger"

/-- How many commits, how many readers, and at which commits rows are
removed: at every multiple of a number, or at none if that is zero. -/
structure Plan where
  commits : Nat
  readers : Nat
  removeEvery : Nat
deriving DecidableEq, Repr

/-- Adds the table, in a commit of its own, and gives the column of the
amounts. -/
def create : Edit Engine ColumnKey :=
  Engine.write fun id => do
    let t ← Engine.addTable id tableName
    t.addColumn (.scalar "amount" .int false)

/-- The amount of an object. -/
def amountOf (t : TableHandle) (amount : ColumnKey) (key : ObjectKey) :
    Edit Engine Int64 := do
  let v ← (← t.object key).getTyped amount .int
  return v.int?.getD 0

/-- The sum of the amounts that a transaction sees, and their number. -/
def sum (id : TransactionId) (amount : ColumnKey) :
    Edit Engine (Int64 × Nat) := do
  let t ← (← get).requireTable id tableName
  let amounts ← (← t.objectKeys).mapM (amountOf t amount)
  return (amounts.foldl (· + ·) 0, amounts.length)

-- ========================================================== the writer

/-- Adds two rows that cancel. -/
def addPair (t : TableHandle) (amount : ColumnKey) (v : Int64) :
    Edit Engine Unit := do
  (← t.createObject).set amount (.int v)
  (← t.createObject).set amount (.int (-v))

/-- Whether a commit removes rows, if there are any. -/
def Plan.removesAt (p : Plan) (i : Nat) : Bool :=
  0 < p.removeEvery && i % p.removeEvery == 0

/-- The commit with a number, from 0. -/
def commit (p : Plan) (amount : ColumnKey) (i : Nat) : Edit Engine Unit :=
  Engine.write fun id => do
    let t ← (← get).requireTable id tableName
    match p.removesAt i, ← t.objectKeys with
    | true, first :: second :: _ =>
      t.removeObject first
      t.removeObject second
    | _, _ => addPair t amount (Int64.ofNat i + 1)

-- ========================================================= the readers

/-- A reader: its transaction, and the version that it saw last. -/
structure Reader where
  id : TransactionId
  last : Version
deriving DecidableEq, Inhabited

/-- A new reader. -/
def Reader.begin : Edit Engine Reader := do
  let id ← Engine.beginRead
  return ⟨id, ← (← get).versionOf id⟩

/-- Checks the version that a reader holds. -/
def Reader.check (r : Reader) (amount : ColumnKey) :
    Edit Engine (List Violation) := do
  match ← Edit.attempt (sum r.id amount) with
  | .ok (total, rows) =>
    return if total = 0 ∧ rows % 2 = 0 then []
      else [.unbalanced r.last total rows]
  | .error e => return [.unreadable r.last e]

/-- Moves a reader on. -/
def Reader.move (r : Reader) : Edit Engine (Reader × List Violation) := do
  let _ ← Engine.advance r.id
  let now ← (← get).versionOf r.id
  return ({ r with last := now },
    if now.raw < r.last.raw then [.wentBack r.last now] else [])

-- ========================================================== the course

/-- Who does something next. -/
inductive Turn where
  | writer
  | reader (index : Nat)
deriving DecidableEq, Repr

/-- How far a trial has come. -/
structure Progress where
  /-- How many commits were tried. -/
  tried : Nat := 0
  /-- How many commits succeeded. -/
  commits : Nat := 0
  /-- The readers that have begun, by number. -/
  readers : Std.TreeMap Nat Reader := ∅
  violations : List Violation := []

namespace Progress

instance : Inhabited Progress := ⟨{}⟩

/-- Takes note of what was found. -/
def note (s : Progress) (found : List Violation) : Progress :=
  { s with violations := s.violations ++ found }

/-- The writer's turn; nothing if all commits were tried. -/
def write (p : Plan) (amount : ColumnKey) (s : Progress) :
    Edit Engine Progress := do
  if p.commits ≤ s.tried then
    return s
  let i := s.tried
  match ← Edit.attempt (commit p amount i) with
  | .ok () => return { s with tried := i + 1, commits := s.commits + 1 }
  | .error e => return { s with tried := i + 1 }.note [.commitFailed i e]

/-- The reader with a number, begun now if it has not. -/
def reader (s : Progress) (index : Nat) : Edit Engine Reader :=
  match s.readers[index]? with
  | some r => return r
  | none => Reader.begin

/-- A reader's turn: it checks what it holds and moves on. -/
def look (p : Plan) (amount : ColumnKey) (index : Nat) (s : Progress) :
    Edit Engine Progress := do
  if p.readers ≤ index then
    return s
  let r ← s.reader index
  let found ← r.check amount
  let (r, backward) ← r.move
  return { s with readers := s.readers.insert index r }.note
    (found ++ backward)

/-- One turn. -/
def step (p : Plan) (amount : ColumnKey) (s : Progress) :
    Turn → Edit Engine Progress
  | .writer => s.write p amount
  | .reader index => s.look p amount index

/-- A reader's last check. -/
def lastLook (amount : ColumnKey) (s : Progress) (index : Nat) :
    Edit Engine Progress := do
  let r ← s.reader index
  let found ← r.check amount
  Engine.drop r.id
  return s.note found

/-- What is wrong with the state in the end. -/
def lastState (amount : ColumnKey) (s : Progress) :
    Edit Engine Progress := do
  let id ← Engine.beginRead
  let v ← (← get).versionOf id
  let outcome ← Edit.attempt (sum id amount)
  Engine.drop id
  let s := if v.raw.toNat = s.commits + 1 then s
    else s.note [.finalVersion v]
  match outcome with
  | .ok (total, _) => return if total = 0 then s else s.note [.finalSum total]
  | .error _ => return s

end Progress

/-- A whole trial: the turns, then the commits that are left, then the last
look of every reader. -/
def run (p : Plan) (turns : List Turn) : Edit Engine Progress := do
  let amount ← create
  let s ← turns.foldlM (Progress.step p amount) {}
  let s ← (List.replicate (p.commits - s.tried) Turn.writer).foldlM
    (Progress.step p amount) s
  let s ← (List.range p.readers).foldlM (Progress.lastLook amount) s
  s.lastState amount

/-- The course in which every reader looks after every commit. -/
def inTurn (p : Plan) : List Turn :=
  let readers := (List.range p.readers).map Turn.reader
  readers ++ (List.replicate p.commits (Turn.writer :: readers)).flatten

end Ledger

-- ================================================= contending writers

namespace Counter

/-- The name of the table. -/
def tableName : String := "counter"

/-- One commit of one writer. -/
def addRow : Edit Engine Unit :=
  Engine.write fun id => do
    let t ← (← get).requireTable id tableName
    let _ ← t.createObject

/-- So many writers with so many commits each; gives the number of rows in
the end. As every commit adds a row, their order is of no account. -/
def run (writers perWriter : Nat) : Edit Engine Nat := do
  Engine.write fun id => do
    let _ ← Engine.getOrAddTable id tableName
  (List.range (writers * perWriter)).forM fun _ => addRow
  Engine.read fun id => do
    let t ← (← get).requireTable id tableName
    t.size

end Counter

end Colonnade.Trial
