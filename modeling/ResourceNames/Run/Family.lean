import ResourceNames.Run.Cursor
import ResourceNames.Suffix

namespace ResourceNames

/-- Cursors over the same data, and the run that was asked for last with any of them. -/
structure Family where
  data : List UInt8
  cursors : List Cursor
  latest? : Option Run := none
deriving DecidableEq, Repr

namespace Family

/-- What a member of a family can be asked to do. -/
inductive Move
  | next
  | nth (n : Nat)
  | clone
  | restart (minLength : Nat)
  | rest
  | restWith (suffix : Suffix)
  | latestEndsWith (ending : List UInt8)
deriving DecidableEq, Repr

/-- What a move shows. -/
inductive Sight
  | run (run? : Option Run)
  | runs (runs : List Run)
  | member (index : Nat)
  | verdict (verdict? : Option Bool)
  | nothing
deriving DecidableEq, Repr

def start (minLength : Nat) (data : List UInt8) : Family :=
  ⟨data, [.start minLength data], none⟩

def put (family : Family) (member : Nat) (cursor : Cursor) : Family :=
  { family with cursors := family.cursors.set member cursor }

/-- Asks the cursor of a member. Only that member changes; a clone becomes the last of the
family. -/
def ask (family : Family) (member : Nat) (cursor : Cursor) : Move → Sight × Family
  | .next =>
    let (run?, cursor) := cursor.next
    (.run run?, { family.put member cursor with latest? := run? })
  | .nth n =>
    let (run?, cursor) := cursor.nth n
    (.run run?, { family.put member cursor with latest? := run? })
  | .clone =>
    (.member family.cursors.length, { family with cursors := family.cursors ++ [cursor] })
  | .restart minLength => (.nothing, family.put member (.start minLength family.data))
  | .rest =>
    let (runs, cursor) := cursor.rest
    (.runs runs, family.put member cursor)
  | .restWith suffix =>
    let (runs, cursor) := cursor.rest
    (.runs (suffix.keep runs), family.put member cursor)
  | .latestEndsWith ending => (.verdict (family.latest?.map fun run => run.endsWith ending), family)

/-- Asks a member, if there is one of this number. -/
def step (family : Family) (member : Nat) (move : Move) : Sight × Family :=
  match family.cursors[member]? with
  | none => (.nothing, family)
  | some cursor => family.ask member cursor move

/-- The number of runs that a member has seen. -/
def runsSeen (family : Family) (member : Nat) : Nat :=
  (family.cursors[member]?.map Cursor.runsSeen).getD 0

end Family

end ResourceNames
