import HealthWatch.FileFeed

/-!
# A file feed among files

A feed together with the files around it. What is done to the files becomes the events that the
feed's watcher sees when it looks next.
-/

set_option autoImplicit false

namespace HealthWatch

/-- A feed and the files it reads from. -/
structure FileScene where
  files : Files
  source : FileFeed

namespace FileScene

/-- Starts a feed among files. -/
def start (files : Files) (path : String) : Except SourceError FileScene :=
  (FileFeed.start files path).map (fun source => { files := files, source := source })

/-- The path of the feed's file. -/
def path (s : FileScene) : FilePath :=
  FilePath.ofText s.source.path

/-- Writes a file, which the watcher sees as a new file or a changed one. -/
def write (s : FileScene) (path : FilePath) (bytes : ByteArray) : FileScene :=
  let change := if (s.files.bytes? path).isSome then FileChange.modified else .created
  { files := s.files.write path bytes
    source := s.source.observe ⟨change, [path]⟩ }

/-- Moves another file over to the feed's. Where there is none, nothing happens. -/
def rename (s : FileScene) (other : FilePath) : FileScene :=
  if (s.files.bytes? other).isNone || other == s.path then s
  else
    { files := s.files.rename other s.path
      source := (s.source.observe ⟨.removed, [other]⟩).observe ⟨.modified, [s.path]⟩ }

/-- Deletes the feed's file. -/
def remove (s : FileScene) : FileScene :=
  if (s.files.bytes? s.path).isNone then s
  else
    { files := s.files.remove s.path
      source := s.source.observe ⟨.removed, [s.path]⟩ }

/-- Loads the file again. Gives the listeners to tell of the new list. -/
def reload (s : FileScene) : Except SourceError (List Listener × FileScene) :=
  (s.source.reload s.files).map (fun (audience, source) => (audience, { s with source := source }))

/-- Lets the watcher look. Gives the listeners to tell of a new list. -/
def watch (s : FileScene) : List Listener × FileScene :=
  let (audience, source) := s.source.tick s.files
  (audience, { s with source := source })

/-- Has the watcher load the file at once. Gives the listeners to tell of a new list. -/
def signal (s : FileScene) : List Listener × FileScene :=
  let (audience, source) := s.source.refresh s.files
  (audience, { s with source := source })

/-- What the feed has for a user who starts with it. -/
def initialEndpoints (s : FileScene) : Except SourceError (List Endpoint) :=
  s.source.initialEndpoints s.files

/-- Loads the file's list without the feed. -/
def load (s : FileScene) : Except SourceError (List Endpoint) :=
  FileFeed.load s.files s.source.path

/-- The list of the feed. -/
def current (s : FileScene) : List Endpoint :=
  s.source.feed.current

/-- Adds a listener to the feed. -/
def subscribe (s : FileScene) (listener : Listener) : FileScene :=
  { s with source := { s.source with feed := s.source.feed.subscribe listener } }

/-- Closes the feed. -/
def close (s : FileScene) : FileScene :=
  { s with source := s.source.close }

/-- The scene with a list announced on its feed. -/
def announce (s : FileScene) (list : List Endpoint) : FileScene :=
  { s with source := { s.source with feed := s.source.feed.announce list } }

/-- The scene whose watcher has used up its events. -/
def drained (s : FileScene) : FileScene :=
  { s with source := s.source.drained }

/-! ## What a load does to the feed -/

/-- A feed starts with the list that the file has then. -/
theorem start_eq {files : Files} {path : String} {scene : FileScene}
    (h : start files path = .ok scene) :
    ∃ list, FileFeed.load files path = .ok list ∧
      scene = ⟨files, { path := path, feed := Feed.ofList list }⟩ := by
  unfold start FileFeed.start at h
  cases hload : FileFeed.load files path with
  | error error =>
    rw [hload] at h
    cases h
  | ok list =>
    rw [hload] at h
    cases h
    exact ⟨list, rfl, rfl⟩

/-- A request to load the file announces the list that it loads. -/
theorem reload_of_load {s : FileScene} {list : List Endpoint} (h : s.load = .ok list) :
    s.reload = .ok (s.source.feed.audience list, s.announce list) := by
  unfold load at h
  unfold reload FileFeed.reload
  rw [h]
  rfl

/-- A request to load the file reports why the load fails. -/
theorem reload_of_error {s : FileScene} {error : SourceError} (h : s.load = .error error) :
    s.reload = .error error := by
  unfold load at h
  unfold reload FileFeed.reload
  rw [h]
  rfl

/-- A watcher who is signalled announces the list that it loads. -/
theorem signal_of_load {s : FileScene} {list : List Endpoint} (h : s.load = .ok list) :
    s.signal = (s.source.feed.audience list, s.announce list) := by
  rw [signal, FileFeed.refresh_of_ok h]
  rfl

/-- A watcher who is signalled changes nothing when the load fails. -/
theorem signal_of_error {s : FileScene} {error : SourceError} (h : s.load = .error error) :
    s.signal = ([], s) := by
  rw [signal, FileFeed.refresh_of_error h]

/-- The watcher loads the file once if one of its events concerns it. -/
theorem watch_of_stale {s : FileScene} (h : s.source.stale = true) :
    s.watch = s.drained.signal := by
  rw [watch, FileFeed.tick, if_pos h]
  rfl

/-- A watcher uses up events that do not concern the file, and nothing else happens. -/
theorem watch_of_not_stale {s : FileScene} (h : s.source.stale = false) :
    s.watch = ([], s.drained) := by
  rw [watch, FileFeed.tick, h]
  rfl

end FileScene

end HealthWatch
