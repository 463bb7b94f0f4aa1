import ResourceNames.FileSystem

namespace ResourceNames

/-- What has become of a path below the working directory; the path is given as it is shown. -/
structure Change where
  path : String
  node? : Option Node
deriving DecidableEq, Repr

namespace FileSystem

/-- The locations below the working directory that hold something. -/
def inhabited (fs : FileSystem) (top : Location) : List Location :=
  (fs.catalog.entries.map Prod.fst).filter fun l => top.isPrefixOf l && l != top

/-- All that differs below the working directory, in the order of the paths. -/
def changes (before after : FileSystem) : List Change :=
  let top := after.current
  let added := (after.inhabited top).filter fun l => before.node? l != after.node? l
  let removed := (before.inhabited top).filter fun l => (after.node? l).isNone
  let listed := (added ++ removed).map fun l =>
    ⟨"/".intercalate ((l.drop top.length).map Text.shown), after.node? l⟩
  listed.mergeSort fun a b => decide (a.path ≤ b.path)

end FileSystem

/-- A change made to the files from outside. -/
inductive Edit
  | put (path : Path) (content : List UInt8)
  | makeDirectory (path : Path)
  | remove (path : Path)
deriving DecidableEq, Repr

/-- Puts a file with the directories that it needs, makes a directory with its ancestors, or
removes whatever the path leads to. -/
def Edit.apply (fs : FileSystem) : Edit → FileSystem
  | .put path content =>
    let (_, fs) := fs.makeDirectories (path.parent?.getD ⟨[]⟩)
    (fs.write path content).2
  | .makeDirectory path => (fs.makeDirectories path).2
  | .remove path => fs.remove path

end ResourceNames
