import ResourceNames.FileSystem.Catalog
import ResourceNames.LiteralList.Sink
import ResourceNames.Path

namespace ResourceNames

/-- The files and directories of a machine and the directory in which the program works. -/
structure FileSystem where
  catalog : Catalog
  current : Location
deriving DecidableEq

namespace FileSystem

/-- The root is always a directory. -/
def node? (fs : FileSystem) (l : Location) : Option Node :=
  if l = [] then some .directory else fs.catalog.find? l

def set (fs : FileSystem) (l : Location) (node : Node) : FileSystem :=
  { fs with catalog := fs.catalog.insert l node }

def isDirectoryAt (fs : FileSystem) (l : Location) : Bool :=
  fs.node? l = some .directory

/-- An empty working directory and two devices: in `/dev/full` no byte finds room, in `/dev/null`
all bytes vanish. -/
def blank : FileSystem where
  catalog :=
    Catalog.empty.insert ["dev"] .directory
      |>.insert ["dev", "full"] (.special (some .outOfMemory) (some .noSpace))
      |>.insert ["dev", "null"] (.special none none)
      |>.insert ["tmp"] .directory
      |>.insert ["work"] .directory
  current := ["work"]

/-- The longest name that a directory can hold, in bytes. -/
def maxName : Nat := 255

/-- The longest path that can be asked for, in bytes. -/
def maxPath : Nat := 4095

/-- Refuses the paths for which the operating system does not even start to walk. -/
def accept (path : Path) : Except Cause Unit :=
  if path.raw.contains 0 then .error .nulInPath
  else if path.raw = [] then .error .notFound
  else if maxPath < path.raw.length then .error .nameTooLong
  else .ok ()

/-- One step of a walk; only directories can be left, also by a dot. -/
def enter (fs : FileSystem) (l : Location) (name : RawText) : Except Cause Location :=
  if !fs.isDirectoryAt l then .error .notDirectory
  else if name = [Path.dot] then .ok l
  else if name = [Path.dot, Path.dot] then .ok l.dropLast
  else if maxName < name.length then .error .nameTooLong
  else if (fs.node? (l ++ [name])).isNone then .error .notFound
  else .ok (l ++ [name])

def walk (fs : FileSystem) : Location → List RawText → Except Cause Location
  | l, [] => .ok l
  | l, name :: names =>
    match fs.enter l name with
    | .error cause => .error cause
    | .ok l => fs.walk l names

def origin (fs : FileSystem) (path : Path) : Location :=
  if path.isAbsolute then [] else fs.current

/-- The location of something that exists. A trailing slash insists on a directory. -/
def locate (fs : FileSystem) (path : Path) : Except Cause Location := do
  accept path
  let l ← fs.walk (fs.origin path) path.names
  if path.endsWithSlash && !fs.isDirectoryAt l then .error .notDirectory else .ok l

def has (fs : FileSystem) (path : Path) : Bool :=
  (fs.locate path).isOk

def isDirectory (fs : FileSystem) (path : Path) : Bool :=
  match fs.locate path with
  | .ok l => fs.isDirectoryAt l
  | .error _ => false

/-- The location that the last name of a path has or would have in its directory. There is none
for the root and for a path that ends in a dot name. -/
def slot (fs : FileSystem) (path : Path) : Except Cause (Option Location) := do
  accept path
  match path.names.getLast? with
  | none => .ok none
  | some name =>
    let dir ← fs.walk (fs.origin path) path.names.dropLast
    if !fs.isDirectoryAt dir then .error .notDirectory
    else if name = [Path.dot] ∨ name = [Path.dot, Path.dot] then .ok none
    else .ok (some (dir ++ [name]))

def tooLong (l : Location) : Bool :=
  l.getLast?.any fun name => maxName < name.length

def read (fs : FileSystem) (path : Path) : Except Cause (List UInt8) := do
  match fs.node? (← fs.locate path) with
  | some (.file content) => .ok content
  | some .directory => .error .isDirectory
  | some (.special none _) => .ok []
  | some (.special (some cause) _) => .error cause
  | none => .error .notFound

def readText (fs : FileSystem) (path : Path) : Except Cause String := do
  match Text.ofBytes? (← fs.read path) with
  | some text => .ok text
  | none => .error .notText

/-- Opens a file for writing, which makes it or empties it. -/
def create (fs : FileSystem) (path : Path) : Except Cause (Location × FileSystem) := do
  match ← fs.slot path with
  | none => .error .isDirectory
  | some l =>
    if path.endsWithSlash then .error .isDirectory
    else if tooLong l then .error .nameTooLong
    else
      match fs.node? l with
      | some .directory => .error .isDirectory
      | some (.special _ _) => .ok (l, fs)
      | _ => .ok (l, fs.set l (.file []))

/-- The file at a location, open for writing behind what it holds. -/
def openFile (l : Location) : Sink FileSystem Cause where
  write bytes fs :=
    match fs.node? l with
    | some (.file content) => (.ok (), fs.set l (.file (content ++ bytes)))
    | some .directory => (.error .isDirectory, fs)
    | some (.special _ none) => (.ok (), fs)
    | some (.special _ (some cause)) => (if bytes = [] then .ok () else .error cause, fs)
    | none => (.error .notFound, fs)

/-- Leaves a file with this content, whatever it held before. -/
def write (path : Path) (content : List UInt8) (fs : FileSystem) :
    Except Cause Unit × FileSystem :=
  match fs.create path with
  | .error cause => (.error cause, fs)
  | .ok (l, fs) => (openFile l).write content fs

def makeDirectory (fs : FileSystem) (path : Path) : Except Cause FileSystem := do
  match ← fs.slot path with
  | none => .error .alreadyExists
  | some l =>
    if tooLong l then .error .nameTooLong
    else if (fs.node? l).isSome then .error .alreadyExists
    else .ok (fs.set l .directory)

/-- Makes directories, outermost first; one that is there already is as good. -/
def makeEach : List Path → FileSystem → Except Cause Unit × FileSystem
  | [], fs => (.ok (), fs)
  | path :: paths, fs =>
    match fs.makeDirectory path with
    | .ok fs => makeEach paths fs
    | .error cause =>
      if cause = .alreadyExists ∧ fs.isDirectory path then makeEach paths fs else (.error cause, fs)

/-- Tries a path and then its ancestors until one can be made or is there, then comes back down
through those that were missing. -/
def makeUpward : List Path → List Path → FileSystem → Except Cause Unit × FileSystem
  | [], missing, fs => makeEach missing fs
  | path :: above, missing, fs =>
    if path.parent?.isNone then makeEach missing fs
    else
      match fs.makeDirectory path with
      | .ok fs => makeEach missing fs
      | .error cause =>
        if cause = .notFound then makeUpward above (path :: missing) fs
        else if cause = .alreadyExists ∧ fs.isDirectory path then makeEach missing fs
        else (.error cause, fs)

/-- Makes a directory and the ancestors that it lacks. The empty path needs nothing. -/
def makeDirectories (path : Path) (fs : FileSystem) : Except Cause Unit × FileSystem :=
  makeUpward path.ancestors [] fs

/-- Removes a file, or a directory with all that is in it. -/
def remove (path : Path) (fs : FileSystem) : FileSystem :=
  match fs.locate path with
  | .error _ => fs
  | .ok l => { fs with catalog := fs.catalog.erase fun other => l.isPrefixOf other }

end FileSystem

end ResourceNames
