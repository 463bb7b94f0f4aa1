import ResourceNames.FileSystem.Cause
import ResourceNames.Text.Raw

namespace ResourceNames

/-- A place in the file system: the names that lead there from the root. -/
abbrev Location := List RawText

/-- What stands at a location. A special file can be opened like any other. Reading it gives nothing
or fails, and bytes put into it are lost or refused. -/
inductive Node
  | file (content : List UInt8)
  | directory
  | special (onRead? onWrite? : Option Cause)
deriving DecidableEq, Repr

/-- Nodes by location, in ascending order of location. -/
structure Catalog where
  entries : List (Location × Node)
  ordered : entries.Pairwise fun a b => a.1 < b.1
deriving DecidableEq

namespace Catalog

/-- The node that a list of entries gives to a location. -/
def seek (l : Location) : List (Location × Node) → Option Node
  | [] => none
  | entry :: rest => if entry.1 = l then some entry.2 else seek l rest

/-- Sets an entry where the order wants it, in place of one with the same location. -/
def settle (l : Location) (node : Node) : List (Location × Node) → List (Location × Node)
  | [] => [(l, node)]
  | entry :: rest =>
    if l < entry.1 then (l, node) :: entry :: rest
    else if l = entry.1 then (l, node) :: rest
    else entry :: settle l node rest

theorem mem_settle {l : Location} {node : Node} {entry : Location × Node}
    {entries : List (Location × Node)} (member : entry ∈ settle l node entries) :
    entry = (l, node) ∨ entry ∈ entries := by
  induction entries with
  | nil => simpa [settle] using member
  | cons first rest ih =>
    simp only [settle] at member
    split at member
    · simpa using member
    · split at member
      · rcases List.mem_cons.1 member with rfl | old
        · exact .inl rfl
        · exact .inr (List.mem_cons_of_mem _ old)
      · rcases List.mem_cons.1 member with rfl | deeper
        · exact .inr List.mem_cons_self
        · exact (ih deeper).imp_right (List.mem_cons_of_mem _)

theorem ordered_settle {l : Location} {node : Node} {entries : List (Location × Node)}
    (ordered : entries.Pairwise fun a b => a.1 < b.1) :
    (settle l node entries).Pairwise fun a b => a.1 < b.1 := by
  induction entries with
  | nil => simp [settle]
  | cons first rest ih =>
    obtain ⟨above, tail⟩ := List.pairwise_cons.1 ordered
    simp only [settle]
    split
    · rename_i before
      refine List.pairwise_cons.2 ⟨fun entry member => ?_, ordered⟩
      rcases List.mem_cons.1 member with rfl | old
      · exact before
      · exact List.lt_trans before (above entry old)
    · rename_i notBefore
      split
      · rename_i same
        exact List.pairwise_cons.2 ⟨fun entry member => same ▸ above entry member, tail⟩
      · rename_i different
        refine List.pairwise_cons.2 ⟨fun entry member => ?_, ih tail⟩
        rcases mem_settle member with rfl | old
        · exact Classical.byContradiction fun notAfter =>
            different (List.le_antisymm notAfter notBefore)
        · exact above entry old

theorem seek_settle {l other : Location} {node : Node} {entries : List (Location × Node)} :
    seek other (settle l node entries) = if l = other then some node else seek other entries := by
  induction entries with
  | nil => simp [settle, seek]
  | cons first rest ih =>
    simp only [settle]
    split
    · simp [seek]
    · split
      · rename_i same
        subst same
        simp only [seek]
        split <;> simp_all
      · rename_i different
        simp only [seek, ih]
        split
        · rename_i here
          subst here
          simp [different]
        · rfl

def empty : Catalog := ⟨[], .nil⟩

def find? (c : Catalog) (l : Location) : Option Node := seek l c.entries

def insert (c : Catalog) (l : Location) (node : Node) : Catalog :=
  ⟨settle l node c.entries, ordered_settle c.ordered⟩

/-- Drops the entries at the locations that `gone` names. -/
def erase (c : Catalog) (gone : Location → Bool) : Catalog :=
  ⟨c.entries.filter fun entry => !gone entry.1, c.ordered.filter _⟩

@[simp] theorem find?_empty (l : Location) : empty.find? l = none := rfl

theorem find?_insert (c : Catalog) (l other : Location) (node : Node) :
    (c.insert l node).find? other = if l = other then some node else c.find? other :=
  seek_settle

end Catalog

end ResourceNames
