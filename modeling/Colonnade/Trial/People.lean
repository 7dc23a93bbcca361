/-
A table of people for trials: each has an age, perhaps a name and a day of
birth, perhaps a best friend, friends, and nicknames. It has a column of
every shape: required, nullable, a link, a list of links and a list of
values.

Chain: `newDatabase` opens a database on a host and fills it.
-/
import Colonnade.Host

namespace Colonnade.Trial

/-- The columns of the table of people. -/
structure People where
  age : ColumnKey
  name : ColumnKey
  born : ColumnKey
  bestFriend : ColumnKey
  friends : ColumnKey
  nicknames : ColumnKey
deriving DecidableEq, Inhabited

namespace People

/-- The name of the table. -/
def tableName : String := "class_Person"

/-- The columns in order of creation. -/
def columns (p : People) : List ColumnKey :=
  [p.age, p.name, p.born, p.bestFriend, p.friends, p.nicknames]

/-- Adds the table within a transaction. -/
def createIn (id : TransactionId) : Edit Engine People := do
  let t ← Engine.addTable id tableName
  let age ← t.addColumn (.scalar "age" .int false)
  let name ← t.addColumn (.scalar "name" .string true)
  let born ← t.addColumn (.scalar "born" .timestamp true)
  let bestFriend ← t.addColumn (.link "bestFriend" t.key)
  let friends ← t.addColumn (.linkList "friends" t.key)
  let nicknames ← t.addColumn (.list "nicknames" .string true)
  return { age, name, born, bestFriend, friends, nicknames }

/-- Adds the table, in a commit of its own. -/
def create : Edit Engine People := Engine.write createIn

/-- Adds a person whose age and name tell a number. -/
def addPerson (p : People) (t : TableHandle) (i : Nat) :
    Edit Engine ObjectKey := do
  let o ← t.createObject
  o.set p.age (.int (Int64.ofNat i))
  o.set p.name (.string s!"p{i}")
  return o.key

/-- Adds so many people, numbered from 0, in one commit. -/
def populate (p : People) (count : Nat) : Edit Engine (List ObjectKey) :=
  Engine.write fun id => do
    let t ← (← get).requireTable id tableName
    (List.range count).mapM (p.addPerson t)

/-- Adds the table and so many people. -/
def createPopulated (count : Nat) : Edit Engine People := do
  let p ← create
  let _ ← p.populate count
  return p

-- ================================================ databases of people

/-- A new database of people: in a directory, or in memory if none is
given. -/
def newDatabase (directory : Option String) (count : Nat) :
    Edit Host (Nat × People) := do
  let n ← match directory with
    | some path => Host.openDirectory path {}
    | none => Host.openInMemory {}
  return (n, ← Host.onEngine n (createPopulated count))

/-- Closes a database and opens it again, if it is in a directory; one in
memory would be gone. -/
def reopen (n : Nat) (directory : Option String) : Edit Host Nat := do
  match directory with
  | some path =>
    Host.release n
    Host.openDirectory path {}
  | none => return n

end People

end Colonnade.Trial
