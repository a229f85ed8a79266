import HealthWatch.EndpointsFile
import HealthWatch.Feed
import HealthWatch.Files

/-!
# Feeds from a file

A feed whose list is read from an endpoints file. It keeps the list of the last load that went
well: a load that fails changes nothing. The file is loaded again on request, and by a watcher when
it is signalled and when it looks at the events that it has collected in the file's directory. It
loads once then if one of them shows that the file was written or put into place.
-/

set_option autoImplicit false

namespace HealthWatch

/-- Why a source of endpoints has none to give. -/
inductive SourceError where
  | read (path : String) (failure : ReadFailure)
  | parse (path : String)
  | closed
deriving Repr

namespace SourceError

/-- The wording of a source error. That of a file which is no endpoints file ends where the words
of the data format would begin. -/
def message : SourceError → String
  | read path failure =>
    "failed to read endpoints file '" ++ path ++ "': " ++ failure.message
  | parse path => "failed to parse endpoints file '" ++ path ++ "'"
  | closed => "endpoint group is closed"

end SourceError

/-- What was done to files. -/
inductive FileChange where
  | created
  | modified
  | removed
  | accessed
  /-- Something else, or nobody knows what. -/
  | other
deriving Repr, DecidableEq

/-- What the system tells of a directory: what was done, and to which files. -/
structure FileEvent where
  change : FileChange
  paths : List FilePath
deriving Repr

/-- A feed with the path of its file and what its watcher has been told. -/
structure FileFeed where
  path : String
  feed : Feed
  /-- The events that the watcher has not looked at yet. -/
  events : List FileEvent := []
deriving Repr

namespace FileFeed

/-- The endpoints of a file that was read, or not. -/
def ofContent (path : String) (content : Except ReadFailure String) :
    Except SourceError (List Endpoint) := do
  let text ← content.mapError (.read path)
  match EndpointsFile.read? text with
  | none => .error (.parse path)
  | some endpoints => .ok endpoints

/-- The endpoints that a file lists now. -/
def load (files : Files) (path : String) : Except SourceError (List Endpoint) :=
  ofContent path (files.readText path)

/-- A file is loaded if it can be read as text and the text is that of an endpoints file. -/
theorem load_eq_ok_iff {files : Files} {path : String} {list : List Endpoint} :
    load files path = .ok list ↔
      ∃ text, files.readText path = .ok text ∧ EndpointsFile.read? text = some list := by
  cases htext : files.readText path with
  | error failure =>
    have hload : load files path = .error (.read path failure) := by
      rw [load, htext]
      rfl
    simp [hload]
  | ok text =>
    have hload : load files path = match EndpointsFile.read? text with
        | none => .error (.parse path)
        | some endpoints => .ok endpoints := by
      rw [load, htext]
      rfl
    rw [hload]
    cases hread : EndpointsFile.read? text <;> simp [hread]

/-- Starts a feed with what the file lists now. -/
def start (files : Files) (path : String) : Except SourceError FileFeed :=
  (load files path).map (fun endpoints => { path := path, feed := Feed.ofList endpoints })

/-- Announces a list and names the listeners to tell. -/
def announce (f : FileFeed) (endpoints : List Endpoint) : List Listener × FileFeed :=
  (f.feed.audience endpoints, { f with feed := f.feed.announce endpoints })

/-- Loads the file again and announces its list. -/
def reload (f : FileFeed) (files : Files) : Except SourceError (List Listener × FileFeed) :=
  (load files f.path).map f.announce

/-- The endpoints that a user of the feed starts from: what the file lists now. A closed feed has
none to give. -/
def initialEndpoints (f : FileFeed) (files : Files) : Except SourceError (List Endpoint) :=
  if f.feed.closed then .error .closed else load files f.path

/-- Is it the name of the feed's file that a path ends in? -/
def names (f : FileFeed) (path : FilePath) : Bool :=
  FilePath.fileName? path == FilePath.fileName? (FilePath.ofText f.path)

/-- Does the event show that the file was written or put into place? -/
def concerns (f : FileFeed) (event : FileEvent) : Bool :=
  (event.change == .created || event.change == .modified) && event.paths.any f.names

/-- Takes note of an event. -/
def note (f : FileFeed) (event : FileEvent) : FileFeed :=
  { f with events := f.events ++ [event] }

/-- Takes note of an event, if it is one in the file's directory, which is all that is watched. -/
def observe (f : FileFeed) (event : FileEvent) : FileFeed :=
  if event.paths.any
      (fun path => FilePath.directory path == FilePath.directory (FilePath.ofText f.path)) then
    f.note event
  else f

/-- Goes through the events to see whether one of them concerns the file. -/
def stale (f : FileFeed) : Bool :=
  f.events.foldl (fun stale event => stale || f.concerns event) false

/-- A pass over events finds one that concerns the file just if there is one, or if it had found one
before. -/
theorem foldl_concerns (f : FileFeed) (events : List FileEvent) (stale : Bool) :
    events.foldl (fun stale event => stale || f.concerns event) stale =
      (stale || events.any f.concerns) := by
  induction events generalizing stale with
  | nil => simp
  | cons event rest ih => simp [ih, Bool.or_assoc]

/-- The watcher loads the file if one of its events concerns it. -/
theorem stale_eq (f : FileFeed) : f.stale = f.events.any f.concerns := by
  simp [stale, foldl_concerns]

/-- The feed without the events it has noted. -/
def drained (f : FileFeed) : FileFeed :=
  { f with events := [] }

/-- Loads the file again for the watcher, who has nobody to tell of a failure. -/
def refresh (f : FileFeed) (files : Files) : List Listener × FileFeed :=
  match f.reload files with
  | .ok outcome => outcome
  | .error _ => ([], f)

/-- A watcher whose load goes well announces the list. -/
theorem refresh_of_ok {f : FileFeed} {files : Files} {list : List Endpoint}
    (h : load files f.path = .ok list) : f.refresh files = f.announce list := by
  rw [refresh, reload, h]
  rfl

/-- A watcher whose load fails changes nothing and tells nobody. -/
theorem refresh_of_error {f : FileFeed} {files : Files} {error : SourceError}
    (h : load files f.path = .error error) : f.refresh files = ([], f) := by
  rw [refresh, reload, h]
  rfl

/-- A look of the watcher: the events are used up, and when one of them concerns the file, it is
loaded, once. -/
def tick (f : FileFeed) (files : Files) : List Listener × FileFeed :=
  if f.stale then f.drained.refresh files else ([], f.drained)

/-- Closes the feed. The watcher is told to stop, and a look that it takes all the same finds a
closed feed, which takes no list. -/
def close (f : FileFeed) : FileFeed :=
  { f with feed := f.feed.close }

end FileFeed

end HealthWatch
