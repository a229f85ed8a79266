import HealthWatch.Proofs.Feed.History
import HealthWatch.Proofs.FileFeed.Supply

/-!
# A file feed keeps the last list that could be loaded

Anything may happen to the files, the watcher may be told of anything, and the feed's file may be
loaded at any time, by whom it may be. To the feed all of this is a history of its own: the lists
that are loaded are announced on it, listeners join it, and it is closed (`feedActs`). So what it
holds and what its listeners hear comes from the lists that were loaded (`loaded`), and a load that
fails leaves no trace.
-/

set_option autoImplicit false

namespace HealthWatch.FileScene

/-- Something that is done among the files. -/
inductive Act where
  | write (path : FilePath) (bytes : ByteArray)
  /-- Another file takes the place of the feed's. -/
  | rename (other : FilePath)
  | remove
  /-- From now on there are these files, and the watcher is not told. -/
  | change (files : Files)
  /-- The watcher is told of an event, whether or not there was one. -/
  | notice (event : FileEvent)
  | subscribe (listener : Listener)
  | reload
  /-- The watcher looks. -/
  | watch
  /-- The watcher is made to load the file. -/
  | signal
  /-- A user asks for the endpoints to start from. -/
  | ask
  | close

/-- The listeners who are told of a list on an act, and the scene after it. -/
def perform (s : FileScene) : Act → List Listener × FileScene
  | .write path bytes => ([], s.write path bytes)
  | .rename other => ([], s.rename other)
  | .remove => ([], s.remove)
  | .change files => ([], { s with files := files })
  | .notice event => ([], { s with source := s.source.note event })
  | .subscribe listener => ([], s.subscribe listener)
  | .reload =>
    match s.reload with
    | .ok outcome => outcome
    | .error _ => ([], s)
  | .watch => s.watch
  | .signal => s.signal
  | .ask => ([], s)
  | .close => ([], s.close)

/-- The scene after some acts. -/
def after (s : FileScene) (acts : List Act) : FileScene :=
  acts.foldl (fun s a => (s.perform a).2) s

/-- How the load goes that is made for the feed on an act, if one is. -/
def attempt? (s : FileScene) : Act → Option (Except SourceError (List Endpoint))
  | .reload => some s.load
  | .signal => some s.load
  | .watch => if s.source.stale then some s.load else none
  | _ => none

/-- The list that is loaded for the feed on an act, if one is. -/
def loaded? (s : FileScene) (a : Act) : Option (List Endpoint) :=
  (s.attempt? a).bind Except.toOption

/-- While the file cannot be loaded, no act loads a list. -/
theorem loaded?_of_error {s : FileScene} {error : SourceError} (h : s.load = .error error)
    (a : Act) : s.loaded? a = none := by
  cases a with
  | watch =>
    rw [loaded?, attempt?, h]
    split <;> rfl
  | reload =>
    rw [loaded?, attempt?, h]
    rfl
  | signal =>
    rw [loaded?, attempt?, h]
    rfl
  | _ => rfl

/-- The lists that are loaded for the feed, one after another, until it is closed. -/
def loaded (s : FileScene) : List Act → List (List Endpoint)
  | [] => []
  | .close :: _ => []
  | a :: rest => (s.loaded? a).toList ++ (s.perform a).2.loaded rest

/-- The list that the feed holds after each act, with the listeners who are told of it then. -/
def told (s : FileScene) : List Act → List (List Endpoint × List Listener)
  | [] => []
  | a :: rest => ((s.perform a).2.current, (s.perform a).1) :: (s.perform a).2.told rest

/-! ## What an act does to the feed -/

/-- What is done to the feed on an act, if anything is. -/
def feedAct? (s : FileScene) : Act → Option Feed.Act
  | .subscribe listener => some (.subscribe listener)
  | .close => some .close
  | a => (s.loaded? a).map .announce

/-- What is done to the feed on some acts. -/
def feedActs (s : FileScene) : List Act → List Feed.Act
  | [] => []
  | a :: rest => (s.feedAct? a).toList ++ (s.perform a).2.feedActs rest

/-- Taking note of an event changes neither the feed nor the path that it reads. -/
theorem observe_keeps (f : FileFeed) (event : FileEvent) :
    (f.observe event).feed = f.feed ∧ (f.observe event).path = f.path := by
  unfold FileFeed.observe
  split <;> exact ⟨rfl, rfl⟩

/-- Moving a file changes neither the feed nor the path that it reads. -/
theorem rename_keeps (s : FileScene) (other : FilePath) :
    (s.rename other).source.feed = s.source.feed ∧
      (s.rename other).source.path = s.source.path := by
  unfold rename
  split
  · exact ⟨rfl, rfl⟩
  · simp [observe_keeps]

/-- Deleting the file changes neither the feed nor the path that it reads. -/
theorem remove_keeps (s : FileScene) :
    s.remove.source.feed = s.source.feed ∧ s.remove.source.path = s.source.path := by
  unfold remove
  split
  · exact ⟨rfl, rfl⟩
  · exact observe_keeps _ _

/-- In the scene a load on request does just what a signal to the watcher does. -/
theorem perform_reload (s : FileScene) : s.perform .reload = s.signal := by
  cases hload : s.load with
  | error error => simp [perform, reload_of_error hload, signal_of_error hload]
  | ok list => simp [perform, reload_of_load hload, signal_of_load hload]

/-- A signal leaves the path and the events of the watcher. -/
theorem signal_keeps (s : FileScene) :
    s.signal.2.source.path = s.source.path ∧ s.signal.2.source.events = s.source.events := by
  cases hload : s.load with
  | error error =>
    rw [signal_of_error hload]
    exact ⟨rfl, rfl⟩
  | ok list =>
    rw [signal_of_load hload]
    exact ⟨rfl, rfl⟩

/-- After a look of the watcher its events are used up. -/
theorem watch_keeps (s : FileScene) :
    s.watch.2.source.path = s.source.path ∧ s.watch.2.source.events = [] := by
  cases hstale : s.source.stale with
  | true =>
    rw [watch_of_stale hstale]
    exact signal_keeps s.drained
  | false =>
    rw [watch_of_not_stale hstale]
    exact ⟨rfl, rfl⟩

/-- A feed reads the same path for good. -/
theorem path_perform (s : FileScene) (a : Act) :
    (s.perform a).2.source.path = s.source.path := by
  cases a with
  | write path bytes => exact (observe_keeps _ _).2
  | rename other => exact (rename_keeps s other).2
  | remove => exact (remove_keeps s).2
  | reload =>
    rw [perform_reload]
    exact (signal_keeps s).1
  | signal => exact (signal_keeps s).1
  | watch => exact (watch_keeps s).1
  | _ => rfl

/-- On a signal the feed has the list announced that can be loaded, if one can. -/
theorem feed_signal (s : FileScene) :
    let act? := s.load.toOption.map Feed.Act.announce
    s.signal.2.source.feed = act?.elim s.source.feed s.source.feed.act ∧
      s.signal.1 = act?.elim [] s.source.feed.reached := by
  cases hload : s.load with
  | error error =>
    rw [signal_of_error hload]
    exact ⟨rfl, rfl⟩
  | ok list =>
    rw [signal_of_load hload]
    exact ⟨rfl, rfl⟩

/-- An act does to the feed what it is said to do, and the listeners whom that reaches are told. -/
theorem feed_perform (s : FileScene) (a : Act) :
    (s.perform a).2.source.feed = (s.feedAct? a).elim s.source.feed s.source.feed.act ∧
      (s.perform a).1 = (s.feedAct? a).elim [] s.source.feed.reached := by
  cases a with
  | write path bytes => exact ⟨(observe_keeps _ _).1, rfl⟩
  | rename other => exact ⟨(rename_keeps s other).1, rfl⟩
  | remove => exact ⟨(remove_keeps s).1, rfl⟩
  | reload =>
    rw [perform_reload]
    exact feed_signal s
  | signal => exact feed_signal s
  | watch =>
    cases hstale : s.source.stale with
    | true =>
      have hload : s.feedAct? .watch = s.load.toOption.map .announce := by
        simp [feedAct?, loaded?, attempt?, hstale]
      rw [perform, watch_of_stale hstale, hload]
      exact feed_signal s.drained
    | false =>
      have hnothing : s.feedAct? .watch = none := by simp [feedAct?, loaded?, attempt?, hstale]
      rw [perform, watch_of_not_stale hstale, hnothing]
      exact ⟨rfl, rfl⟩
  | _ => exact ⟨rfl, rfl⟩

/-! ## What some acts do to the feed -/

/-- Whatever is done, the feed reads the path that it was started with. -/
theorem path_after (s : FileScene) (acts : List Act) :
    (s.after acts).source.path = s.source.path := by
  induction acts generalizing s with
  | nil => rfl
  | cons a rest ih => exact (ih (s.perform a).2).trans (path_perform s a)

/-- The feed after some acts is the one after what they do to it. -/
theorem feed_after (s : FileScene) (acts : List Act) :
    (s.after acts).source.feed = s.source.feed.after (s.feedActs acts) := by
  induction acts generalizing s with
  | nil => rfl
  | cons a rest ih =>
    have hrest : (s.after (a :: rest)).source.feed =
        (s.perform a).2.source.feed.after ((s.perform a).2.feedActs rest) := ih (s.perform a).2
    rw [hrest, (feed_perform s a).1, feedActs]
    cases s.feedAct? a with
    | none => rfl
    | some b => rfl

/-- Listeners hear the same of the acts as of what they do to the feed. -/
theorem heardAt_told (s : FileScene) (place : Nat) (listener : Listener) (acts : List Act) :
    Feed.heardAt place listener (s.told acts) =
      Feed.heardAt place listener (s.source.feed.told (s.feedActs acts)) := by
  induction acts generalizing s with
  | nil => rfl
  | cons a rest ih =>
    obtain ⟨hfeed, haudience⟩ := feed_perform s a
    have hcurrent : (s.perform a).2.current =
      ((s.feedAct? a).elim s.source.feed s.source.feed.act).current := congrArg Feed.current hfeed
    have hrest := ih (s.perform a).2
    rw [hfeed] at hrest
    rw [told, feedActs, hcurrent, haudience]
    cases hact : s.feedAct? a with
    | none => simpa [hact, Feed.heardAt] using hrest
    | some b =>
      rw [hact] at hrest
      cases b with
      | announce list =>
        cases haccepts : s.source.feed.accepts list with
        | true =>
          -- what is told is the list that the feed holds now
          have hheld : (s.source.feed.announce list).current = list := by
            rw [Feed.announce_of_accepts haccepts]
          simp only [Option.elim_some, Feed.act, Feed.heardAt] at hrest
          simp [Feed.heardAt, Feed.reached, Feed.told, Feed.act, hheld, List.filterMap_cons, hrest]
        | false =>
          have hnobody := Feed.audience_of_not_accepts haccepts
          simpa [Feed.heardAt, Feed.reached, Feed.told, Feed.act, hnobody] using hrest
      | subscribe other => simpa [Feed.heardAt, Feed.reached, Feed.told, Feed.act] using hrest
      | close => simpa [Feed.heardAt, Feed.reached, Feed.told, Feed.act] using hrest

/-- What is announced first comes first among the announcements. -/
theorem announcements_append (list? : Option (List Endpoint)) (acts : List Feed.Act) :
    Feed.announcements ((list?.map .announce).toList ++ acts) =
      list?.toList ++ Feed.announcements acts := by
  cases list? <;> rfl

/-- The lists that are announced on the feed are those that are loaded for it. -/
theorem announcements_feedActs (s : FileScene) (acts : List Act) :
    Feed.announcements (s.feedActs acts) = s.loaded acts := by
  induction acts generalizing s with
  | nil => rfl
  | cons a rest ih =>
    have hrest := ih (s.perform a).2
    have hloaded := announcements_append (s.loaded? a) ((s.perform a).2.feedActs rest)
    rw [hrest] at hloaded
    cases a with
    | close => rfl
    | subscribe listener => exact hrest
    | _ => exact hloaded

/-- Only to close the scene closes the feed. -/
theorem feedAct?_eq_close_iff (s : FileScene) (a : Act) :
    s.feedAct? a = some .close ↔ a = .close := by
  cases a <;> simp [feedAct?]

/-- The feed is closed by some acts just if one of them closes it. -/
theorem close_mem_feedActs (s : FileScene) (acts : List Act) :
    Feed.Act.close ∈ s.feedActs acts ↔ Act.close ∈ acts := by
  induction acts generalizing s with
  | nil => simp [feedActs]
  | cons a rest ih =>
    simp [feedActs, ih, feedAct?_eq_close_iff, eq_comm (a := Act.close)]

/-! ## After the feed is closed -/

/-- A feed that was open is closed once one of the acts has closed it. -/
theorem closed_after (s : FileScene) (hopen : s.source.feed.closed = false) (acts : List Act) :
    (s.after acts).source.feed.closed = true ↔ Act.close ∈ acts := by
  rw [feed_after, Feed.closed_after, hopen, close_mem_feedActs]
  simp

/-- A closed feed stays closed, and nobody is told of anything. -/
theorem perform_of_closed {s : FileScene} (h : s.source.feed.closed = true) (a : Act) :
    (s.perform a).2.source.feed.closed = true ∧ (s.perform a).1 = [] := by
  obtain ⟨hfeed, haudience⟩ := feed_perform s a
  rw [hfeed, haudience]
  cases s.feedAct? a with
  | none => exact ⟨h, rfl⟩
  | some b =>
    have hclosed : (s.source.feed.after [b]).closed = true :=
      (Feed.closed_after _ [b]).mpr (Or.inl h)
    refine ⟨hclosed, ?_⟩
    cases b with
    | announce list => exact Feed.audience_of_not_accepts (Feed.accepts_of_closed h list)
    | subscribe listener => rfl
    | close => rfl

/-- Nobody is told of anything once the feed is closed. -/
theorem told_of_closed {s : FileScene} (h : s.source.feed.closed = true) (acts : List Act) :
    ∀ t ∈ s.told acts, t.2 = [] := by
  induction acts generalizing s with
  | nil => simp [told]
  | cons a rest ih =>
    obtain ⟨hclosed, hnobody⟩ := perform_of_closed h a
    rw [told, List.forall_mem_cons]
    exact ⟨hnobody, ih hclosed⟩

/-- A closed feed keeps its list for good. -/
theorem current_after_of_closed {s : FileScene} (h : s.source.feed.closed = true)
    (acts : List Act) : (s.after acts).current = s.current := by
  rw [current, feed_after, Feed.current_after, (Feed.taken_of_closed h _).1]
  rfl

/-! ## While the feed is open -/

/-- An open feed comes to hold the list that is loaded last. -/
theorem current_after {s : FileScene} (hopen : s.source.feed.closed = false) (acts : List Act) :
    (s.after acts).current = (s.loaded acts).getLastD s.current := by
  rw [current, feed_after, Feed.current_after_of_open hopen, announcements_feedActs]
  rfl

/-- A listener who joins an open feed hears the lists that are loaded from then on, without
repetitions. -/
theorem heardAt_told_subscribe {s : FileScene} (hopen : s.source.feed.closed = false)
    (hannounced : s.source.feed.announced = true) (listener : Listener) (acts : List Act) :
    let t := s.subscribe listener
    s.current :: Feed.heardAt s.source.feed.listeners.length listener (t.told acts) =
      (t.loaded acts).destutter' (· ≠ ·) s.current := by
  intro t
  have hheard := Feed.heardAt_subscribe s.source.feed listener (t.feedActs acts)
  have htaken := Feed.cons_taken_of_announced (f := s.source.feed.subscribe listener) hopen
    hannounced (t.feedActs acts)
  rw [announcements_feedActs] at htaken
  rw [heardAt_told]
  exact (congrArg (s.current :: ·) hheard).trans htaken

/-! ## The watcher -/

/-- One of the events that the watcher has not looked at yet shows that a file of the name of the
feed's was written or put into place. -/
def Due (s : FileScene) : Prop :=
  ∃ event ∈ s.source.events, (event.change = .created ∨ event.change = .modified) ∧
    ∃ path ∈ event.paths, FilePath.fileName? path = FilePath.fileName? s.path

/-- The watcher loads the file at its next look just if that is due. -/
theorem due_iff (s : FileScene) : s.Due ↔ s.source.stale = true := by
  simp [Due, FileFeed.stale_eq, FileFeed.concerns, FileFeed.names, path]

/-- The watcher keeps the events that it is told of, in their order. -/
theorem events_after_notice (s : FileScene) (batch : List FileEvent) :
    (s.after (batch.map .notice)).source.events = s.source.events ++ batch := by
  induction batch generalizing s with
  | nil => simp [after]
  | cons event rest ih =>
    have hrest := ih (s.perform (.notice event)).2
    exact hrest.trans (by simp [perform, FileFeed.note])

/-- A look at a file that cannot be loaded does no more than use up the events. -/
theorem watch_of_error {s : FileScene} {error : SourceError} (h : s.load = .error error) :
    s.watch = ([], s.drained) := by
  cases hstale : s.source.stale with
  | true => rw [watch_of_stale hstale, signal_of_error (s := s.drained) h]
  | false => rw [watch_of_not_stale hstale]

/-! ## Main statement -/

/-- A feed that was started from a file holds the list that was loaded last, of those at the start,
on request, by the watcher and on a signal before it is closed. A load goes well exactly if the file
can be read as text and that is the text of an endpoints file, and one that fails changes nothing.
When the watcher looks, it loads once if one of its events shows that a file of that name was
written or put into place, and otherwise not at all; its events are those that it was told of since
it looked before. A listener hears the lists that are loaded after it joins, without repetitions.
Asking for the endpoints changes nothing. Once the feed is closed, that is refused, the list stays,
and nobody is told of another. -/
theorem feed_holds_the_last_good_list {files : Files} {path : String} {scene : FileScene}
    (hstart : start files path = .ok scene) (acts : List Act) :
    let s := scene.after acts
    FileFeed.load files path = .ok scene.current ∧
    s.current = (scene.loaded acts).getLastD scene.current ∧
    (∀ list, s.load = .ok list ↔
      ∃ text, s.files.readText path = .ok text ∧ EndpointsFile.read? text = some list) ∧
    (∀ error, s.load = .error error → s.reload = .error error ∧ s.perform .reload = ([], s) ∧
      s.perform .signal = ([], s) ∧ s.perform .watch = ([], s.drained)) ∧
    (s.Due → s.perform .watch = s.drained.perform .reload) ∧
    (¬ s.Due → s.perform .watch = ([], s.drained)) ∧
    (∀ batch, (s.after (.watch :: batch.map .notice)).source.events = batch) ∧
    (Act.close ∉ acts → ∀ listener later,
      s.current :: Feed.heardAt s.source.feed.listeners.length listener
          ((s.subscribe listener).told later) =
        ((s.subscribe listener).loaded later).destutter' (· ≠ ·) s.current) ∧
    s.perform .ask = ([], s) ∧
    (Act.close ∉ acts → s.initialEndpoints = s.load) ∧
    (Act.close ∈ acts → s.initialEndpoints = .error .closed ∧
      ∀ later, (s.after later).current = s.current ∧ ∀ t ∈ s.told later, t.2 = []) := by
  intro s
  obtain ⟨first, hfirst, rfl⟩ := start_eq hstart
  have hpath : s.source.path = path := path_after _ acts
  have hclosed : s.source.feed.closed = true ↔ Act.close ∈ acts := closed_after _ rfl acts
  have hopen : Act.close ∉ acts → s.source.feed.closed = false := fun hno => by
    rwa [← hclosed, Bool.not_eq_true] at hno
  have hannounced : s.source.feed.announced = true := by
    rw [feed_after, Feed.announced_after]
    rfl
  -- the clauses in their order: the list held, reading, a failed load, the notices, the listeners,
  -- a question, and the close
  refine ⟨hfirst, current_after rfl acts, fun list => ?_, fun error hfails => ?_, fun hdue => ?_,
    fun hnot => ?_, fun batch => ?_, fun hno listener later => ?_, rfl, fun hno => ?_,
    fun hclose => ⟨?_, fun later => ⟨?_, ?_⟩⟩⟩
  · rw [load, hpath]
    exact FileFeed.load_eq_ok_iff
  · have hsignal := signal_of_error hfails
    refine ⟨reload_of_error hfails, (perform_reload s).trans hsignal, hsignal, ?_⟩
    exact watch_of_error hfails
  · rw [perform_reload]
    exact watch_of_stale (s.due_iff.mp hdue)
  · rw [due_iff, Bool.not_eq_true] at hnot
    exact watch_of_not_stale hnot
  · have hbatch := events_after_notice s.watch.2 batch
    rw [(watch_keeps s).2, List.nil_append] at hbatch
    exact hbatch
  · exact heardAt_told_subscribe (hopen hno) hannounced listener later
  · rw [initialEndpoints, FileFeed.initialEndpoints, hopen hno]
    rfl
  · rw [initialEndpoints, FileFeed.initialEndpoints, hclosed.mpr hclose]
    rfl
  · exact current_after_of_closed (hclosed.mpr hclose) later
  · exact told_of_closed (hclosed.mpr hclose) later

/-- The files, if there is only one and it holds no text. -/
def noText : Files :=
  { contents := [(["e"], ⟨#[0xff]⟩)] }

/-- A file that holds no text cannot be loaded. -/
theorem load_noText : FileFeed.load noText "e" = .error (.read "e" .notText) := by
  cbv

/-- A feed from the file, which was written and not looked at since. -/
def written (files : Files) (feed : Feed) : FileScene :=
  ⟨files, { path := "e", feed := feed, events := [⟨.modified, [["e"]]⟩] }⟩

/-- To write the file tells the watcher of it, whatever was in the file before. -/
theorem write_over (old bytes : ByteArray) (feed : Feed) :
    write ⟨{ contents := [(["e"], old)] }, { path := "e", feed := feed }⟩ ["e"] bytes =
      written { contents := [(["e"], bytes)] } feed := by
  have hdirectory : FilePath.directory ["e"] = (FilePath.ofText "e").directory := by decide
  simp [write, written, Files.write, Files.bytes?, FileFeed.observe, FileFeed.note, hdirectory]

/-- A file that was written is due to be loaded. -/
theorem due_written (files : Files) (feed : Feed) : (written files feed).source.stale = true := by
  have hname : FilePath.fileName? ["e"] = FilePath.fileName? (FilePath.ofText "e") := by decide
  exact (due_iff _).mp
    ⟨_, List.mem_singleton_self _, Or.inr rfl, _, List.mem_singleton_self _, hname⟩

/-- The watcher finds no text in the file, and another endpoint when it looks again. -/
theorem loaded_noText (feed : Feed) :
    (written noText feed).loaded
      [.watch, .write ["e"] "endpoints: [b]".toUTF8, .watch, .close] = [[{ host := "b" }]] := by
  have hbad : (written noText feed).load = .error (.read "e" .notText) := load_noText
  have hgood : (written (Supply.onlyFile "endpoints: [b]") feed).loaded? .watch =
      some [{ host := "b" }] := by
    have hload : (written (Supply.onlyFile "endpoints: [b]") feed).load = .ok [{ host := "b" }] :=
      Supply.load_listing_b
    rw [loaded?, attempt?, if_pos (due_written _ _), hload]
    rfl
  have hwrite : (written noText feed).drained.write ["e"] "endpoints: [b]".toUTF8 =
      written (Supply.onlyFile "endpoints: [b]") feed := write_over _ _ feed
  simp only [loaded, perform, loaded?_of_error hbad, watch_of_error hbad, hwrite, hgood]
  rfl

/-- The file is overwritten with a byte that is no text. A request to load it changes nothing, and
neither does the watcher, who finds it written. Then it is made to list another endpoint, and a
listener hears of that one alone. -/
theorem feed_holds_its_list_through_a_bad_file :
    let a : Endpoint := { host := "a" }
    let b : Endpoint := { host := "b" }
    let scene : FileScene :=
      ⟨Supply.onlyFile "endpoints: [a]", { path := "e", feed := Feed.ofList [a] }⟩
    let earlier : List Act := [.write ["e"] ⟨#[0xff]⟩, .reload]
    let later : List Act := [.watch, .write ["e"] "endpoints: [b]".toUTF8, .watch, .close]
    let s := scene.after earlier
    start (Supply.onlyFile "endpoints: [a]") "e" = .ok scene ∧
      s.current = [a] ∧ s.perform .reload = ([], s) ∧
      Feed.heardAt 0 7 ((s.subscribe 7).told later) = [[b]] ∧
      (scene.after (earlier ++ later)).initialEndpoints = .error .closed := by
  intro a b scene earlier later s
  have hstart : start (Supply.onlyFile "endpoints: [a]") "e" = .ok scene := by
    rw [start, FileFeed.start, Supply.load_listing_a]
    rfl
  obtain ⟨-, -, -, hfails, -, -, -, hhears, -⟩ :=
    feed_holds_the_last_good_list hstart earlier
  obtain ⟨-, -, -, -, -, -, -, -, -, -, hclosed⟩ :=
    feed_holds_the_last_good_list hstart (earlier ++ later)
  have hbad : (written noText (Feed.ofList [a])).load = .error (.read "e" .notText) := load_noText
  have hs : scene.after earlier = written noText (Feed.ofList [a]) := by
    have hwrite : scene.write ["e"] ⟨#[0xff]⟩ = written noText (Feed.ofList [a]) :=
      write_over _ _ _
    show ((scene.write ["e"] ⟨#[0xff]⟩).perform .reload).2 = _
    rw [hwrite, perform_reload, signal_of_error hbad]
  have hlater : ((written noText (Feed.ofList [a])).subscribe 7).loaded later = [[b]] :=
    loaded_noText ((Feed.ofList [a]).subscribe 7)
  have hheard := hhears (by simp [earlier]) 7 later
  rw [hs] at hfails hheard
  have hnobody : (written noText (Feed.ofList [a])).source.feed.listeners.length = 0 := rfl
  rw [hlater, hnobody] at hheard
  have hchanged : [[b]].destutter' (· ≠ ·) [a] = [[a], [b]] := by simp [a, b]
  obtain ⟨-, hb⟩ := List.cons.inj (hheard.trans hchanged)
  have hclose : Act.close ∈ earlier ++ later := by simp [earlier, later]
  change _ ∧ (scene.after earlier).current = _ ∧
    (scene.after earlier).perform .reload = ([], scene.after earlier) ∧
    Feed.heardAt 0 7 (((scene.after earlier).subscribe 7).told later) = _ ∧ _
  rw [hs]
  exact ⟨hstart, rfl, (hfails _ hbad).2.1, hb, (hclosed hclose).1⟩

end HealthWatch.FileScene
