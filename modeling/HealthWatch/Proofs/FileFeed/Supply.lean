import HealthWatch.FileFeed.Scene
import HealthWatch.Proofs.Supervisor.Candidates
import HealthWatch.Proofs.Supervisor.Replay
import HealthWatch.Strategy.Policy
import Mathlib

/-!
# A supervisor supplied from a file

A supervisor on a file feed is built by loading the file for its first candidates, and from then on
it listens to the feed. The feed announces a list only if it is not the one that the feed holds, and
it does not come to hold the list that the supervisor was built with. So the supervisor follows the
file once a list has been loaded that differs from the one that the feed held when the supervisor
was built. Until then it keeps the candidates it was built with (`Follows`).
-/

set_option autoImplicit false

namespace HealthWatch

variable {σ : Type} [Strategy σ]

/-! ## What a load does to the feed -/

/-- The feed is as it was, but for further listeners, or for being closed. -/
structure Feed.Grown (f g : Feed) : Prop where
  current : g.current = f.current
  announced : g.announced = f.announced
  listening : g.closed = false → f.closed = false ∧ f.listeners ⊆ g.listeners

/-- A feed that did not change has grown by nothing. -/
theorem Feed.Grown.of_eq {f g : Feed} (h : g = f) : f.Grown g := by
  subst h
  exact ⟨rfl, rfl, fun hopen => ⟨hopen, List.Subset.refl _⟩⟩

/-- A feed with another listener has grown. -/
theorem Feed.grown_subscribe (f : Feed) (listener : Listener) : f.Grown (f.subscribe listener) :=
  ⟨rfl, rfl, fun hopen => ⟨hopen, List.subset_append_left _ _⟩⟩

/-- A feed that is closed counts as grown: it has nobody left to tell. -/
theorem Feed.grown_close (f : Feed) : f.Grown f.close :=
  ⟨rfl, rfl, nofun⟩

/-- A reload that goes well loads a list, announces it, and tells the listeners whom it reaches. -/
theorem FileScene.reload_eq {scene after : FileScene} {told : List Listener}
    (h : scene.reload = .ok (told, after)) :
    ∃ list, scene.load = .ok list ∧ told = scene.source.feed.audience list ∧
      after.source.feed = scene.source.feed.announce list := by
  cases hload : scene.load with
  | error error =>
    rw [FileScene.reload_of_error hload] at h
    cases h
  | ok list =>
    rw [FileScene.reload_of_load hload] at h
    cases h
    exact ⟨list, rfl, rfl, rfl⟩

/-- A file feed among its files and, once it is built, the supervisor that listens to it. -/
structure Supply (σ : Type) where
  scene : FileScene
  supervisor : Option (Supervisor σ) := none

namespace Supply

open Supervisor (Event)

/-- Something that is done about the file, the feed or the supervisor. -/
inductive Deed where
  | change (files : Files)
  /-- The watcher collects an event. -/
  | observe (event : FileEvent)
  | listen (listener : Listener)
  | reload
  /-- The watcher looks. -/
  | watch
  | close
  | build
  | event (event : Event)

omit [Strategy σ] in
/-- The list that is loaded for the feed, if one is and that goes well. -/
def loaded? (x : Supply σ) : Deed → Option (List Endpoint)
  | .reload => x.scene.load.toOption
  | .watch =>
    if !x.scene.source.feed.closed && x.scene.source.events.any x.scene.source.concerns then
      x.scene.load.toOption
    else none
  | _ => none

/-- The feed itself. -/
def feed (x : Supply σ) : Feed :=
  x.scene.source.feed

/-- What comes of the supervisor, which goes by this number, when a list is told to listeners. -/
inductive Tells (ours : Listener) (x : Supply σ) (told : List Listener) (list : List Endpoint) :
    Option (Supervisor σ) → Prop where
  | heard {s t : Supervisor σ} (hours : ours ∈ told) (hs : x.supervisor = some s)
      (h : s.offer list = some t) : Tells ours x told list (some t)
  | unheard (hours : ours ∉ told) : Tells ours x told list x.supervisor

/-- One deed and what there is before and after it. The supervisor is built once, and its candidates
come from the feed. -/
inductive Step (ours : Listener) (terms : Terms) (strategy : σ) (x : Supply σ) :
    Deed → Supply σ → Prop where
  | change (files : Files) :
      Step ours terms strategy x (.change files)
        { x with scene := { x.scene with files := files } }
  | observe (event : FileEvent) :
      Step ours terms strategy x (.observe event)
        { x with scene := { x.scene with source := x.scene.source.observe event } }
  | listen {listener : Listener} (hother : listener ≠ ours) :
      Step ours terms strategy x (.listen listener) { x with scene := x.scene.subscribe listener }
  | reload {told : List Listener} {scene : FileScene} {supervisor : Option (Supervisor σ)}
      (h : x.scene.reload = .ok (told, scene))
      (htells : x.Tells ours told scene.current supervisor) :
      Step ours terms strategy x .reload ⟨scene, supervisor⟩
  | reloadFails {error : SourceError} (h : x.scene.reload = .error error) :
      Step ours terms strategy x .reload x
  | watch {told : List Listener} {scene : FileScene} {supervisor : Option (Supervisor σ)}
      (h : x.scene.watch = (told, scene)) (htells : x.Tells ours told scene.current supervisor) :
      Step ours terms strategy x .watch ⟨scene, supervisor⟩
  | close : Step ours terms strategy x .close { x with scene := x.scene.close }
  | build {first : List Endpoint} {s : Supervisor σ} (hnone : x.supervisor = none)
      (hfirst : x.scene.initialEndpoints = .ok first)
      (h : (Supervisor.fresh terms strategy).offer first = some s) :
      Step ours terms strategy x .build ⟨x.scene.subscribe ours, some s⟩
  | event {event : Event} {s t : Supervisor σ} (hs : x.supervisor = some s)
      (hother : ∀ candidates, event ≠ .offer candidates) (k : Supervisor.Step s event t) :
      Step ours terms strategy x (.event event) { x with supervisor := some t }

/-- A sequence of deeds, with the lists that were loaded for the feed on the way. -/
inductive Run (ours : Listener) (terms : Terms) (strategy : σ) (x : Supply σ) :
    List (List Endpoint) → Supply σ → Prop where
  | nil : Run ours terms strategy x [] x
  | snoc {loads : List (List Endpoint)} {deed : Deed} {y z : Supply σ}
      (r : Run ours terms strategy x loads y) (k : Step ours terms strategy y deed z) :
      Run ours terms strategy x (loads ++ (y.loaded? deed).toList) z

/-! ## What a deed does -/

omit [Strategy σ] in
/-- A look of the watcher loads a list, announces it and tells it, or leaves the feed alone and
tells nobody. -/
theorem watch_cases {x : Supply σ} {told : List Listener} {after : FileScene}
    (h : x.scene.watch = (told, after)) :
    (∃ list, x.loaded? .watch = some list ∧ told = x.feed.audience list ∧
      after.source.feed = x.feed.announce list) ∨
    (x.loaded? .watch = none ∧ told = [] ∧ after.source.feed = x.feed) := by
  have hany := FileFeed.stale_eq x.scene.source
  unfold loaded?
  cases hstale : x.scene.source.stale with
  | false =>
    rw [FileScene.watch_of_not_stale hstale] at h
    cases h
    exact Or.inr ⟨by simp [← hany, hstale], rfl, rfl⟩
  | true =>
    rw [FileScene.watch_of_stale hstale] at h
    rw [← hany, hstale, Bool.and_true]
    cases hload : x.scene.load with
    | error error =>
      rw [FileScene.signal_of_error (s := x.scene.drained) hload] at h
      cases h
      exact Or.inr ⟨ite_self _, rfl, rfl⟩
    | ok list =>
      rw [FileScene.signal_of_load (s := x.scene.drained) hload] at h
      cases h
      cases hclosed : x.scene.source.feed.closed with
      | false => exact Or.inl ⟨list, rfl, rfl, rfl⟩
      | true =>
        have hrefused := Feed.accepts_of_closed hclosed list
        exact Or.inr
          ⟨rfl, Feed.audience_of_not_accepts hrefused, Feed.announce_of_not_accepts hrefused⟩

variable {ours : Listener} {terms : Terms} {strategy : σ}

/-- A deed loads a list, which is then announced and told, or it leaves the feed and the candidates
alone. -/
theorem Step.cases {x z : Supply σ} {deed : Deed} (k : Step ours terms strategy x deed z) :
    (∃ list, x.loaded? deed = some list ∧ z.feed = x.feed.announce list ∧
      x.Tells ours (x.feed.audience list) z.feed.current z.supervisor) ∨
    (x.loaded? deed = none ∧ x.feed.Grown z.feed ∧ ∀ s, x.supervisor = some s →
      z.supervisor = some s ∨ ∃ event t, z.supervisor = some t ∧
        (∀ candidates, event ≠ .offer candidates) ∧ Supervisor.Step s event t) := by
  cases k with
  | reload h htells =>
    obtain ⟨list, hload, rfl, hfeed⟩ := FileScene.reload_eq h
    refine Or.inl ⟨list, ?_, hfeed, htells⟩
    rw [loaded?, hload]
    rfl
  | watch h htells =>
    rcases watch_cases h with ⟨list, hloaded, rfl, hfeed⟩ | ⟨hloaded, rfl, hfeed⟩
    · exact Or.inl ⟨list, hloaded, hfeed, htells⟩
    · refine Or.inr ⟨hloaded, Feed.Grown.of_eq hfeed, fun s hs => ?_⟩
      cases htells with
      | heard hours => exact absurd hours List.not_mem_nil
      | unheard => exact Or.inl hs
  | reloadFails h =>
    refine Or.inr ⟨?_, Feed.Grown.of_eq rfl, fun s hs => Or.inl hs⟩
    rw [loaded?]
    cases hload : x.scene.load with
    | error _ => rfl
    | ok list =>
      rw [FileScene.reload_of_load hload] at h
      cases h
  | change files => exact Or.inr ⟨rfl, Feed.Grown.of_eq rfl, fun s hs => Or.inl hs⟩
  | observe event =>
    have hsame : (x.scene.source.observe event).feed = x.feed := by
      unfold FileFeed.observe
      split <;> rfl
    exact Or.inr ⟨rfl, Feed.Grown.of_eq hsame, fun s hs => Or.inl hs⟩
  | listen => exact Or.inr ⟨rfl, Feed.grown_subscribe _ _, fun s hs => Or.inl hs⟩
  | close => exact Or.inr ⟨rfl, Feed.grown_close _, fun s hs => Or.inl hs⟩
  | build hnone =>
    refine Or.inr ⟨rfl, Feed.grown_subscribe _ _, fun s hs => ?_⟩
    rw [hnone] at hs
    cases hs
  | @event event s t hs hother k =>
    refine Or.inr ⟨rfl, Feed.Grown.of_eq rfl, fun s' hs' => Or.inr ⟨event, t, rfl, hother, ?_⟩⟩
    obtain rfl := Option.some.inj (hs.symm.trans hs')
    exact k

/-- A feed on which a list was announced stays one. -/
theorem Step.announced {x z : Supply σ} {deed : Deed} (k : Step ours terms strategy x deed z)
    (h : x.feed.announced = true) : z.feed.announced = true := by
  rcases k.cases with ⟨list, -, hfeed, -⟩ | ⟨-, hgrown, -⟩
  · rw [hfeed]
    exact Feed.announced_announce h list
  · exact hgrown.announced.trans h

/-- A feed on which a list was announced stays one through every run. -/
theorem Run.announced {x z : Supply σ} {loads : List (List Endpoint)}
    (r : Run ours terms strategy x loads z) (h : x.feed.announced = true) :
    z.feed.announced = true := by
  induction r with
  | nil => exact h
  | snoc _ k ih => exact k.announced ih

/-! ## The supervisor and the file -/

/-- A supervisor that was built with one list (`read`) while the feed held another (`stored`), and
the lists that were loaded since. While the feed is open, the candidates are those of the feed once
a list was loaded that is not the one stored then. -/
structure Follows (ours : Listener) (stored read : List Endpoint) (loads : List (List Endpoint))
    (feed : Feed) (s : Supervisor σ) : Prop where
  quiet : Supervisor.Quiet s.terms
  rest : s.refreshing = false
  announced : feed.announced = true
  listening : feed.closed = false → ours ∈ feed.listeners
  candidates : feed.closed = false →
    ((∃ list ∈ loads, list ≠ stored) ∧ s.candidates = feed.current) ∨
    ((∀ list ∈ loads, list = stored) ∧ feed.current = stored ∧ s.candidates = read)

/-- A supervisor goes on following its feed through all that announces no list to it. -/
theorem Follows.go_on {stored read : List Endpoint} {loads : List (List Endpoint)} {f g : Feed}
    {s t : Supervisor σ} (h : Follows ours stored read loads f s) (hgrown : f.Grown g)
    (hlater : t = s ∨ ∃ event, (∀ candidates, event ≠ .offer candidates) ∧
      Supervisor.Step s event t) : Follows ours stored read loads g t := by
  obtain ⟨hterms, hcandidates, hrest⟩ :
      t.terms = s.terms ∧ t.candidates = s.candidates ∧ t.refreshing = false := by
    rcases hlater with rfl | ⟨event, hother, k⟩
    · exact ⟨rfl, rfl, h.rest⟩
    · obtain ⟨hterms, hcandidates⟩ := k.candidates h.quiet h.rest hother
      exact ⟨hterms, hcandidates, k.refreshing h.rest⟩
  constructor
  case quiet => exact hterms ▸ h.quiet
  case rest => exact hrest
  case announced => exact hgrown.announced.trans h.announced
  case listening =>
    intro hopen
    obtain ⟨hopen, hmore⟩ := hgrown.listening hopen
    exact hmore (h.listening hopen)
  case candidates =>
    intro hopen
    obtain ⟨hopen, -⟩ := hgrown.listening hopen
    rw [hgrown.current, hcandidates]
    exact h.candidates hopen

/-- A list that is loaded is offered to the supervisor unless the feed holds it already. -/
theorem Follows.load {stored read : List Endpoint} {loads : List (List Endpoint)} {x : Supply σ}
    {s : Supervisor σ} (h : Follows ours stored read loads x.feed s) (hs : x.supervisor = some s)
    {list : List Endpoint} {later : Option (Supervisor σ)}
    (htells : x.Tells ours (x.feed.audience list) (x.feed.announce list).current later) :
    ∃ t, later = some t ∧ Follows ours stored read (loads ++ [list]) (x.feed.announce list) t := by
  by_cases hnew : x.feed.accepts list = true
  · -- the feed was open and held another list
    obtain ⟨hopen, hchanged⟩ : x.feed.closed = false ∧ x.feed.current ≠ list := by
      simpa [Feed.accepts, h.announced] using hnew
    have hfeed : x.feed.announce list = { x.feed with current := list, announced := true } :=
      if_pos hnew
    have haudience : x.feed.audience list = x.feed.listeners := if_pos hnew
    rw [haudience, hfeed] at htells
    cases htells with
    | unheard hours => exact absurd (h.listening hopen) hours
    | @heard s' t hours hs' htold =>
      obtain rfl := Option.some.inj (hs.symm.trans hs')
      obtain ⟨hterms, hcandidates, hrest⟩ := Supervisor.candidates_of_offer h.quiet h.rest htold
      refine ⟨t, rfl, ?_⟩
      rw [hfeed]
      constructor
      case quiet => exact hterms ▸ h.quiet
      case rest => exact hrest
      case announced => rfl
      case listening => exact h.listening
      case candidates =>
        intro _
        refine Or.inl ⟨?_, hcandidates⟩
        rcases h.candidates hopen with ⟨⟨other, hmem, hother⟩, -⟩ | ⟨-, hstored, -⟩
        · exact ⟨other, List.mem_append_left _ hmem, hother⟩
        · exact ⟨list, by simp, fun hsame => hchanged (hstored.trans hsame.symm)⟩
  · have hfeed : x.feed.announce list = x.feed := if_neg hnew
    have haudience : x.feed.audience list = [] := if_neg hnew
    rw [haudience] at htells
    cases htells with
    | heard hours => exact absurd hours List.not_mem_nil
    | unheard =>
      refine ⟨s, hs, ?_⟩
      rw [hfeed]
      refine { h with candidates := fun hopen => ?_ }
      -- an open feed refuses only the list that it holds
      have hheld : x.feed.current = list := by
        simpa [Feed.accepts, hopen, h.announced] using hnew
      rcases h.candidates hopen with ⟨⟨other, hmem, hother⟩, hsame⟩ | ⟨hall, hstored, hread⟩
      · exact Or.inl ⟨⟨other, List.mem_append_left _ hmem, hother⟩, hsame⟩
      · refine Or.inr ⟨?_, hstored, hread⟩
        intro other hmem
        rcases List.mem_append.mp hmem with hmem | hmem
        · exact hall other hmem
        · rw [List.mem_singleton.mp hmem, ← hheld, hstored]

/-- A supervisor goes on following its feed through every deed, with the list that it loads. -/
theorem Step.follows {stored read : List Endpoint} {loads : List (List Endpoint)} {x z : Supply σ}
    {deed : Deed} (k : Step ours terms strategy x deed z) {s : Supervisor σ}
    (hs : x.supervisor = some s) (h : Follows ours stored read loads x.feed s) :
    ∃ t, z.supervisor = some t ∧
      Follows ours stored read (loads ++ (x.loaded? deed).toList) z.feed t := by
  rcases k.cases with ⟨list, hload, hfeed, htells⟩ | ⟨hload, hgrown, hlater⟩
  · rw [hfeed] at htells
    rw [hload, hfeed]
    exact h.load hs htells
  · rw [hload, Option.toList_none, List.append_nil]
    rcases hlater s hs with ht | ⟨event, t, ht, hother, k⟩
    · exact ⟨s, ht, h.go_on hgrown (Or.inl rfl)⟩
    · exact ⟨t, ht, h.go_on hgrown (Or.inr ⟨event, hother, k⟩)⟩

/-- A supervisor that follows its feed does so after every run, with the lists that were loaded on
it. -/
theorem Run.follows {stored read : List Endpoint} {x z : Supply σ} {loads : List (List Endpoint)}
    (r : Run ours terms strategy x loads z) {s : Supervisor σ} (hs : x.supervisor = some s)
    (h : Follows ours stored read [] x.feed s) :
    ∃ t, z.supervisor = some t ∧ Follows ours stored read loads z.feed t := by
  induction r with
  | nil => exact ⟨s, hs, h⟩
  | snoc _ k ih =>
    obtain ⟨t, ht, h⟩ := ih
    exact k.follows ht h

/-- A supervisor that is built follows its feed, between the list that the feed holds and the one
read for it. -/
theorem Step.follows_of_build {x y : Supply σ} (k : Step ours terms strategy x .build y)
    {read : List Endpoint} (hread : x.scene.initialEndpoints = .ok read)
    (hannounced : x.feed.announced = true) (hquiet : Supervisor.Quiet terms) :
    ∃ s, y.supervisor = some s ∧ Follows ours x.scene.current read [] y.feed s := by
  cases k with
  | @build first s _ hfirst h =>
    obtain rfl := Except.ok.inj (hread.symm.trans hfirst)
    obtain ⟨hterms, hcandidates, hrest⟩ := Supervisor.candidates_of_offer hquiet rfl h
    refine ⟨s, rfl, ?_⟩
    constructor
    case quiet => exact hterms ▸ hquiet
    case rest => exact hrest
    case announced => exact hannounced
    case listening => exact fun _ => List.mem_append_right _ (List.mem_singleton_self ours)
    case candidates => exact fun _ => Or.inr ⟨nofun, rfl, hcandidates⟩

/-! ## Main statement -/

/-- When the file is loaded and the feed is open, the feed holds the list that was loaded. The
supervisor has it for its candidates exactly if it was built with the list that the feed held then,
or if one of the lists loaded since was another. -/
theorem supervisor_follows_file_iff {files : Files} {path : String} {scene : FileScene}
    (hstart : FileScene.start files path = .ok scene) (hquiet : Supervisor.Quiet terms)
    {x y z w : Supply σ} {earlier later : List (List Endpoint)}
    (r : Run ours terms strategy ⟨scene, none⟩ earlier x) {read : List Endpoint}
    (hread : x.scene.initialEndpoints = .ok read) (k : Step ours terms strategy x .build y)
    (r' : Run ours terms strategy y later z) (hopen : z.feed.closed = false) {deed : Deed}
    {list : List Endpoint} (hload : z.loaded? deed = some list)
    (k' : Step ours terms strategy z deed w) :
    w.scene.current = list ∧ ∃ s, w.supervisor = some s ∧
      (s.candidates = list ↔
        read = x.scene.current ∨ ∃ other ∈ later ++ [list], other ≠ x.scene.current) := by
  have hannounced : (⟨scene, none⟩ : Supply σ).feed.announced = true := by
    unfold FileScene.start FileFeed.start at hstart
    cases hload : FileFeed.load files path with
    | error _ =>
      rw [hload] at hstart
      cases hstart
    | ok first =>
      rw [hload] at hstart
      cases hstart
      rfl
  have hfeed : w.feed = z.feed.announce list := by
    rcases k'.cases with ⟨loaded, hloaded, hfeed, -⟩ | ⟨hnone, -⟩
    · obtain rfl := Option.some.inj (hload.symm.trans hloaded)
      exact hfeed
    · rw [hload] at hnone
      cases hnone
  have hcurrent : w.feed.current = list := by rw [hfeed, Feed.current_announce hopen]
  have hstill : w.feed.closed = false := by rw [hfeed, Feed.closed_announce, hopen]
  obtain ⟨s, hs, h⟩ := k.follows_of_build hread (r.announced hannounced) hquiet
  obtain ⟨t, ht, h⟩ := (r'.snoc k').follows hs h
  rw [hload, Option.toList_some] at h
  refine ⟨hcurrent, t, ht, ?_⟩
  -- The supervisor has what the feed told it last. When nothing but the stored list was loaded
  -- since the build, the feed told it nothing, and it has the list that the build read.
  rcases h.candidates hstill with ⟨hother, hsame⟩ | ⟨hall, hstored, hread⟩
  · have hfollows : t.candidates = list := hsame.trans hcurrent
    exact iff_of_true hfollows (Or.inr hother)
  · have hnone : ¬ ∃ other ∈ later ++ [list], other ≠ x.scene.current := by
      rintro ⟨other, hmem, hother⟩
      exact hother (hall other hmem)
    have hkept : t.candidates = list ↔ read = x.scene.current := by
      rw [hread, ← hcurrent, hstored]
    exact hkept.trans (or_iff_left hnone).symm

/-! ## A file that changes before the supervisor is built -/

/-- The files, if there is only one. -/
def onlyFile (text : String) : Files :=
  { contents := [(["e"], text.toUTF8)] }

/-- The first of the two files lists one endpoint. -/
theorem load_listing_a : FileFeed.load (onlyFile "endpoints: [a]") "e" = .ok [{ host := "a" }] := by
  cbv

/-- The second of the two files lists another. -/
theorem load_listing_b : FileFeed.load (onlyFile "endpoints: [b]") "e" = .ok [{ host := "b" }] := by
  cbv

/-- The feed holds one list, and the supervisor is built with the other. -/
theorem build_after_change {s : Supervisor σ} (hs : (Supervisor.fresh {} strategy).offer
    [{ host := "b" }] = some s) :
    let scene : FileScene :=
      ⟨onlyFile "endpoints: [a]", { path := "e", feed := Feed.ofList [{ host := "a" }] }⟩
    let x : Supply σ := ⟨{ scene with files := onlyFile "endpoints: [b]" }, none⟩
    FileScene.start (onlyFile "endpoints: [a]") "e" = .ok scene ∧
      Run 0 {} strategy ⟨scene, none⟩ [] x ∧ x.scene.initialEndpoints = .ok [{ host := "b" }] ∧
      Step 0 {} strategy x .build ⟨x.scene.subscribe 0, some s⟩ := by
  intro scene x
  have hread : x.scene.initialEndpoints = .ok [{ host := "b" }] := load_listing_b
  refine ⟨?_, ?_, hread, Step.build rfl hread hs⟩
  · rw [FileScene.start, FileFeed.start, load_listing_a]
    rfl
  · exact Run.nil.snoc (Step.change (onlyFile "endpoints: [b]"))

/-- Once the list that the supervisor was built with has been loaded, it follows the file back. -/
theorem supervisor_follows_file_there_and_back :
    let a : Endpoint := { host := "a" }
    let b : Endpoint := { host := "b" }
    ∃ (scene : FileScene) (x y z w : Supply Policy) (s : Supervisor Policy),
      FileScene.start (onlyFile "endpoints: [a]") "e" = .ok scene ∧
      Run 0 {} (Policy.ofQuota none) ⟨scene, none⟩ [] x ∧ x.scene.initialEndpoints = .ok [b] ∧
      Step 0 {} (Policy.ofQuota none) x .build y ∧
      Run 0 {} (Policy.ofQuota none) y [[b]] z ∧ z.feed.closed = false ∧
      z.loaded? .reload = some [a] ∧ Step 0 {} (Policy.ofQuota none) z .reload w ∧
      w.scene.current = [a] ∧ w.supervisor = some s ∧ s.candidates = [a] := by
  intro a b
  have hquiet : Supervisor.Quiet {} := Supervisor.quiet_of_silent rfl
  -- the supervisor is offered the second list when it is built and when that is loaded
  obtain ⟨s, hs, hnext⟩ : ∃ s, (Supervisor.fresh {} (Policy.ofQuota none)).offer [b] = some s ∧
      (s.replayEvent 9 (.offer [b])).any
        (fun t => decide ((t.replayEvent 9 (.offer [a])).any (fun _ => true) = true)) = true :=
    Supervisor.exists_offer_of_replay (n := 9) rfl (by decide)
  obtain ⟨hterms, -, hrest⟩ := Supervisor.candidates_of_offer hquiet rfl hs
  obtain ⟨t, ht, hlast⟩ := Supervisor.exists_offer_of_replay hrest hnext
  obtain ⟨-, -, hrest⟩ := Supervisor.candidates_of_offer (hterms ▸ hquiet) hrest ht
  obtain ⟨u, hu, -⟩ : ∃ u, t.offer [a] = some u ∧ True :=
    Supervisor.exists_offer_of_replay hrest (by simpa using hlast)
  obtain ⟨hstart, hbefore, hread, hbuild⟩ := build_after_change hs
  let y : Supply Policy :=
    ⟨⟨onlyFile "endpoints: [b]", { path := "e", feed := (Feed.ofList [a]).subscribe 0 }⟩, some s⟩
  let loaded : Supply Policy :=
    ⟨⟨onlyFile "endpoints: [b]", { path := "e", feed := y.feed.announce [b] }⟩, some t⟩
  let z : Supply Policy :=
    ⟨⟨onlyFile "endpoints: [a]", { path := "e", feed := y.feed.announce [b] }⟩, some t⟩
  let w : Supply Policy :=
    ⟨⟨onlyFile "endpoints: [a]", { path := "e", feed := z.feed.announce [a] }⟩, some u⟩
  have hbetween : Run 0 {} (Policy.ofQuota none) y [[b]] z := by
    have hload : y.scene.load = .ok [b] := load_listing_b
    have hheard : 0 ∈ ((Feed.ofList [a]).subscribe 0).audience [b] := by decide
    have hreload : Step 0 {} (Policy.ofQuota none) y .reload loaded :=
      Step.reload (FileScene.reload_of_load hload) (Tells.heard hheard rfl ht)
    have hrun := (Run.nil.snoc hreload).snoc (Step.change (onlyFile "endpoints: [a]"))
    rw [loaded?, hload] at hrun
    exact hrun
  have hload : z.scene.load = .ok [a] := load_listing_a
  have hloaded : z.loaded? .reload = some [a] := by
    rw [loaded?, hload]
    rfl
  have hheard : 0 ∈ (((Feed.ofList [a]).subscribe 0).announce [b]).audience [a] := by decide
  have hreload : Step 0 {} (Policy.ofQuota none) z .reload w :=
    Step.reload (FileScene.reload_of_load hload) (Tells.heard hheard rfl hu)
  obtain ⟨hcurrent, v, hv, hiff⟩ := supervisor_follows_file_iff hstart hquiet hbefore hread hbuild
    hbetween rfl hloaded hreload
  have hfollows : v.candidates = [a] := hiff.mpr (Or.inr ⟨[b], by simp, by decide⟩)
  exact ⟨_, _, y, z, w, v, hstart, hbefore, hread, hbuild, hbetween, rfl, hloaded, hreload,
    hcurrent, hv, hfollows⟩

/-- A file that changes back before the list that the supervisor was built with has been loaded is
not followed. -/
theorem supervisor_misses_a_change_back :
    let a : Endpoint := { host := "a" }
    let b : Endpoint := { host := "b" }
    ∃ (scene : FileScene) (x y z w : Supply Policy) (s : Supervisor Policy),
      FileScene.start (onlyFile "endpoints: [a]") "e" = .ok scene ∧
      Run 0 {} (Policy.ofQuota none) ⟨scene, none⟩ [] x ∧ x.scene.initialEndpoints = .ok [b] ∧
      Step 0 {} (Policy.ofQuota none) x .build y ∧ Run 0 {} (Policy.ofQuota none) y [] z ∧
      z.feed.closed = false ∧ z.loaded? .reload = some [a] ∧
      Step 0 {} (Policy.ofQuota none) z .reload w ∧ w.scene.current = [a] ∧
      w.supervisor = some s ∧ s.candidates = [b] := by
  intro a b
  have hquiet : Supervisor.Quiet {} := Supervisor.quiet_of_silent rfl
  obtain ⟨s, hs, -⟩ : ∃ s, (Supervisor.fresh {} (Policy.ofQuota none)).offer [b] = some s ∧ True :=
    Supervisor.exists_offer_of_replay (n := 9) rfl (by decide)
  obtain ⟨-, hcandidates, -⟩ := Supervisor.candidates_of_offer hquiet rfl hs
  obtain ⟨hstart, hbefore, hread, hbuild⟩ := build_after_change hs
  let z : Supply Policy :=
    ⟨⟨onlyFile "endpoints: [a]", { path := "e", feed := (Feed.ofList [a]).subscribe 0 }⟩, some s⟩
  have hload : z.scene.load = .ok [a] := load_listing_a
  have hloaded : z.loaded? .reload = some [a] := by
    rw [loaded?, hload]
    rfl
  have hunheard : 0 ∉ ((Feed.ofList [a]).subscribe 0).audience [a] := by decide
  exact ⟨_, _, _, z, _, s, hstart, hbefore, hread, hbuild,
    Run.nil.snoc (Step.change (onlyFile "endpoints: [a]")), rfl, hloaded,
    Step.reload (FileScene.reload_of_load hload) (Tells.unheard hunheard),
    Feed.current_announce rfl [a], rfl, hcandidates⟩

end Supply

end HealthWatch
