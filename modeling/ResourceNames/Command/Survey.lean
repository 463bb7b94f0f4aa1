import ResourceNames.Command

namespace ResourceNames

/-- What has to be known of a machine before a run: which of these places there is a way through,
which of them a file can be put at, and what the files at others of them hold. -/
structure Survey where
  passages : List Location
  rooms : List Location
  contents : List Location
deriving DecidableEq, Repr

namespace FileSystem

/-- A machine of which no more is known than the way to its working directory. -/
def bare (current : Location) : FileSystem where
  catalog :=
    (List.range current.length).foldl
      (fun catalog n => catalog.insert (current.take (n + 1)) .directory) .empty
  current

/-- The locations that names lead to, one after the other. -/
def trail : Location → List RawText → List Location
  | _, [] => []
  | l, name :: names =>
    if name = [Path.dot] then trail l names
    else if name = [Path.dot, Path.dot] then l.dropLast :: trail l.dropLast names
    else (l ++ [name]) :: trail (l ++ [name]) names

def trailOf (fs : FileSystem) (path : Path) : List Location :=
  trail (fs.origin path) path.names

/-- Enters what is known to stand at a location. Files are not looked at twice. -/
def learn (fs : FileSystem) (l : Location) (node? : Option Node) : FileSystem :=
  match fs.node? l, node? with
  | some (.file _), _ => fs
  | _, some node => fs.set l node
  | _, none => { fs with catalog := fs.catalog.erase (· = l) }

end FileSystem

namespace Survey

def none : Survey := ⟨[], [], []⟩

/-- The places on the way to paths, and those that they lead to. -/
def ways (fs : FileSystem) (paths : List Path) : List Location :=
  paths.flatMap fun path => (fs.trailOf path).dropLast

def ends (fs : FileSystem) (paths : List Path) : List Location :=
  paths.filterMap fun path => (fs.trailOf path).getLast?

/-- What decides about the settings. -/
def ofArguments (arguments : Arguments) (fs : FileSystem) : Survey :=
  if arguments.generateConfig then
    let file := [Command.sampleFile arguments]
    ⟨ways fs file, ends fs file, []⟩
  else
    let files := arguments.config.elim Settings.usualFiles fun file => [file]
    ⟨ways fs files, [], ends fs files⟩

/-- What a batch with these settings needs. One that is only planned reads nothing. -/
def ofSettings (settings : Settings) (planned : Bool) (fs : FileSystem) : Survey :=
  let inputs := settings.batch.inputs
  let outputs := (settings.entries.toOption.getD []).map Entry.output
  let dirs := settings.batch.outputDirectory.toList
  { passages :=
      ways fs (inputs ++ outputs ++ dirs) ++ ends fs dirs ++ if planned then ends fs inputs else []
    rooms := ends fs outputs
    contents := if planned then [] else ends fs inputs }

/-- What a run needs when the settings are known. -/
def ofLoaded (arguments : Arguments) (fs : FileSystem) : Survey :=
  if arguments.generateConfig then none
  else
    match Settings.loadOrStandard arguments.config fs with
    | .error _ => none
    | .ok settings => ofSettings (settings.merge arguments.overrides) arguments.dryRun fs

end Survey

end ResourceNames
