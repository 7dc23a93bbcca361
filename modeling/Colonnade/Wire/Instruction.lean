/-
Instructions as bytes. An instruction starts with the number of its
operation, and its fields follow in a fixed order: table, object, column,
index, value. A value starts with the code of its type, or 255 for absence.

The reader accepts what the writer writes and a little more: any byte but
zero is true, and flags of a declaration that mean nothing are passed over.
It refuses keys that no object can have.

Chain: `Wire.Record` frames lists of instructions.
-/
import Colonnade.Instruction
import Colonnade.Wire.Bytes

namespace Colonnade.Wire

-- ========================================================== writing

/-- The number of an operation. -/
def opcode : Instruction → UInt8
  | .addTable _ _ => 1
  | .removeTable _ => 2
  | .addColumn _ _ _ => 3
  | .removeColumn _ _ => 4
  | .createObject _ _ => 5
  | .removeObject _ _ => 6
  | .set _ _ _ _ => 7
  | .listInsert _ _ _ _ _ => 8
  | .listSet _ _ _ _ _ => 9
  | .listRemove _ _ _ _ => 10
  | .listClear _ _ _ => 11

/-- The tag of absence. -/
def nullTag : UInt8 := 0xFF

/-- The flag of a nullable column. -/
def nullableFlag : UInt8 := 1

/-- The flag of a list column. -/
def listFlag : UInt8 := 2

/-- The flag of a declaration with a link target. -/
def targetFlag : UInt8 := 4

def typeByte (t : ColumnType) : UInt8 := UInt8.ofNat t.code

def tableBytes (k : TableKey) : Bytes := u32Bytes k.raw

def columnBytes (k : ColumnKey) : Bytes := i64Bytes k.raw

def objectBytes (k : ObjectKey) : Bytes := i64Bytes k.raw

/-- The place of a cell: table, object and column. -/
def cellBytes (t : TableKey) (k : ObjectKey) (c : ColumnKey) : Bytes :=
  tableBytes t ++ objectBytes k ++ columnBytes c

/-- The flags of a declaration in one byte. -/
def flagsOf (s : ColumnSpec) : UInt8 :=
  (if s.nullable then nullableFlag else 0) |||
    (if s.isList then listFlag else 0) |||
      (if s.target.isSome then targetFlag else 0)

def specBytes (s : ColumnSpec) : Bytes :=
  textBytes s.name ++ [typeByte s.type, flagsOf s] ++
    match s.target with
    | some t => tableBytes t
    | none => []

def valueBytes : Value → Bytes
  | .null => [nullTag]
  | .int n => typeByte .int :: i64Bytes n
  | .bool b => [typeByte .bool, if b then 1 else 0]
  | .string s => typeByte .string :: textBytes s
  | .binary bs => typeByte .binary :: countedBytes bs
  | .timestamp t =>
    typeByte .timestamp :: (i64Bytes t.seconds ++ i32Bytes t.nanoseconds)
  | .float x => typeByte .float :: u32Bytes x.bits
  | .double x => typeByte .double :: u64Bytes x.bits
  | .link k => typeByte .link :: objectBytes k

/-- The fields of an instruction after the number of its operation. -/
def fieldBytes : Instruction → Bytes
  | .addTable t name => tableBytes t ++ textBytes name
  | .removeTable t => tableBytes t
  | .addColumn t c spec => tableBytes t ++ columnBytes c ++ specBytes spec
  | .removeColumn t c => tableBytes t ++ columnBytes c
  | .createObject t k => tableBytes t ++ objectBytes k
  | .removeObject t k => tableBytes t ++ objectBytes k
  | .set t k c v => cellBytes t k c ++ valueBytes v
  | .listInsert t k c i v => cellBytes t k c ++ u64Bytes i ++ valueBytes v
  | .listSet t k c i v => cellBytes t k c ++ u64Bytes i ++ valueBytes v
  | .listRemove t k c i => cellBytes t k c ++ u64Bytes i
  | .listClear t k c => cellBytes t k c

/-- An instruction as bytes. -/
def instructionBytes (i : Instruction) : Bytes := opcode i :: fieldBytes i

-- ========================================================== reading

namespace Reader

def table : Reader TableKey := TableKey.mk <$> u32

def column : Reader ColumnKey := ColumnKey.mk <$> i64

/-- An object key, which must not be negative. -/
def object : Reader ObjectKey := do
  let raw ← i64
  match ObjectKey.ofRaw? raw with
  | some k => pure k
  | none => fail (.negativeKey raw)

def columnType : Reader ColumnType := do
  let code ← u8
  match ColumnType.ofCode? code.toNat with
  | some t => pure t
  | none => fail (.unknownColumnType code)

def spec : Reader ColumnSpec := do
  let name ← text
  let type ← columnType
  let flags ← u8
  let s := ColumnSpec.make name type (flags &&& nullableFlag != 0)
    (flags &&& listFlag != 0)
  if flags &&& targetFlag != 0 then
    return s.withTarget (← table)
  else return s

/-- A timestamp, whose parts must agree. -/
def timestamp : Reader Timestamp := do
  let seconds ← i64
  let nanoseconds ← i32
  match Timestamp.make seconds nanoseconds with
  | .ok t => pure t
  | .error why => fail (.badTimestamp why)

/-- The content of a value of a type. -/
def content : ColumnType → Reader Value
  | .int => Value.int <$> i64
  | .bool => (fun b => Value.bool (b != 0)) <$> u8
  | .string => Value.string <$> text
  | .binary => Value.binary <$> counted
  | .timestamp => Value.timestamp <$> timestamp
  | .float => (fun b => Value.float ⟨b⟩) <$> u32
  | .double => (fun b => Value.double ⟨b⟩) <$> u64
  | .link => Value.link <$> object
  | .linkList => fail .linkListValue

def value : Reader Value := do
  let tag ← u8
  if tag == nullTag then
    return .null
  match ColumnType.ofCode? tag.toNat with
  | some t => content t
  | none => fail (.unknownValueTag tag)

/-- The fields of the operation with a number. -/
def fields (op : UInt8) : Reader Instruction := do
  match op with
  | 1 => return .addTable (← table) (← text)
  | 2 => return .removeTable (← table)
  | 3 => return .addColumn (← table) (← column) (← spec)
  | 4 => return .removeColumn (← table) (← column)
  | 5 => return .createObject (← table) (← object)
  | 6 => return .removeObject (← table) (← object)
  | 7 => return .set (← table) (← object) (← column) (← value)
  | 8 =>
    return .listInsert (← table) (← object) (← column) (← u64) (← value)
  | 9 => return .listSet (← table) (← object) (← column) (← u64) (← value)
  | 10 => return .listRemove (← table) (← object) (← column) (← u64)
  | 11 => return .listClear (← table) (← object) (← column)
  | n => fail (.unknownOpcode n)

/-- One instruction. -/
def instruction : Reader Instruction := do
  fields (← u8)

/-- So many instructions. -/
def instructions : Nat → Reader (List Instruction)
  | 0 => pure []
  | n + 1 => do
    let i ← instruction
    let is ← instructions n
    return i :: is

end Reader

end Colonnade.Wire
