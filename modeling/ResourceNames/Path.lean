import ResourceNames.Text.Raw

namespace ResourceNames

/-- The way to a file or directory, as it was given. It need not be text. -/
structure Path where
  ofRaw ::
  raw : RawText
deriving DecidableEq, Repr, Inhabited

namespace Path

/-- The path that a text spells. -/
def mk (text : String) : Path :=
  ⟨text⟩

instance : Coe String Path := ⟨mk⟩

/-- A path as it is shown. -/
def text (path : Path) : String :=
  Text.shown path.raw

/-- Reports and failures do not keep a path, but what is shown of it. -/
instance : Coe Path String := ⟨text⟩

/-- The text that a path is, if it is one. -/
def text? (path : Path) : Option String :=
  Text.ofBytes? path.raw

/-- What a path is made of. A single dot counts only in front, repeated and trailing slashes not
at all. -/
inductive Component
  | root
  | here
  | up
  | named (name : RawText)
deriving DecidableEq, Repr

def slash : UInt8 := 0x2f

def dot : UInt8 := 0x2e

/-- The stretches of raw text between its slashes. -/
def segments : RawText → List RawText
  | [] => [[]]
  | byte :: rest =>
    if byte = slash then [] :: segments rest
    else
      match segments rest with
      | [] => [[byte]]
      | segment :: others => (byte :: segment) :: others

/-- The component that a segment stands for, if it stands for one; `leading` tells whether it
begins a relative path. -/
def Component.ofSegment? (leading : Bool) (segment : RawText) : Option Component :=
  if segment = [] then none
  else if segment = [dot] then if leading then some .here else none
  else if segment = [dot, dot] then some .up
  else some (.named segment)

/-- The components of segments that begin at `position`, each with the position of its end. -/
def Component.ofSegments (leading : Bool) (position : Nat) :
    List RawText → List (Component × Nat)
  | [] => []
  | segment :: rest =>
    let stop := position + segment.length
    let others := Component.ofSegments false (stop + 1) rest
    match Component.ofSegment? leading segment with
    | none => others
    | some component => (component, stop) :: others

def isAbsolute (path : Path) : Bool :=
  path.raw.head? = some slash

/-- The components, each with the position of its end in the path. In an absolute path the first
segment is what stands in front of the first slash, which is nothing. -/
def placed (path : Path) : List (Component × Nat) :=
  (if path.isAbsolute then [(.root, 1)] else []) ++
    Component.ofSegments true 0 (segments path.raw)

def components (path : Path) : List Component :=
  path.placed.map Prod.fst

/-- The last component, if it is a name. -/
def fileName? (path : Path) : Option RawText :=
  match path.components.getLast? with
  | some (.named name) => some name
  | _ => none

/-- The path up to the component before the last. The root has no parent, and a path of one
component has the empty one. -/
def parent? (path : Path) : Option Path :=
  match path.placed.reverse with
  | [] => none
  | (.root, _) :: _ => none
  | [_] => some ⟨[]⟩
  | _ :: (_, stop) :: _ => some ⟨path.raw.take stop⟩

/-- The path followed by its parent, the parent's parent and so on, up to the root or the empty
path. Each is shorter than the one before, so the length of the path bounds their number. -/
def ancestors (path : Path) : List Path :=
  upward path.raw.length path
where
  upward : Nat → Path → List Path
    | 0, path => [path]
    | bound + 1, path =>
      match path.parent? with
      | none => [path]
      | some parent => path :: upward bound parent

/-- `path` seen from `dir`. -/
def join (dir path : Path) : Path :=
  if path.isAbsolute ∨ dir.raw = [] then path
  else if dir.raw.getLast? = some slash then ⟨dir.raw ++ path.raw⟩
  else ⟨dir.raw ++ slash :: path.raw⟩

/-- The names to walk through, dots among them, as the operating system reads a path. -/
def names (path : Path) : List RawText :=
  (segments path.raw).filter (· ≠ [])

def endsWithSlash (path : Path) : Bool :=
  path.raw.getLast? = some slash

end Path

end ResourceNames
