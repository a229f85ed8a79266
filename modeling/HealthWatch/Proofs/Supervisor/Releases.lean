import HealthWatch.Proofs.Supervisor.Moments

/-!
# Watches that have left

A watch is in force from its beginning until a pass lets go of it or the close takes it. Passes and
calls keep an account of that: each watch is in force, or was released since some earlier state, or
had left before, and it is only one of these (`Accounts`). In the middle of a call the account lacks
the watch that is being begun, and still no watch in force has left and none has left twice
(`Separate`). A watch is retired by its own end only.
-/

set_option autoImplicit false

namespace HealthWatch.Supervisor

variable {σ : Type} [Strategy σ] {before gone : List Nat}

/-! ## The account -/

/-- Where these had been released before and these had left, each watch is in force, has been
released since, or had left, and is only one of these. -/
def Accounts (before gone : List Nat) (s : Supervisor σ) : Prop :=
  ∃ since, s.released = before ++ since ∧
    (s.barrier ++ (gone ++ since)).Perm (List.range s.watches.length)

omit [Strategy σ] in
/-- Where no watch moves, the account stays right. -/
theorem Accounts.unmoved {s t : Supervisor σ} (h : s.Accounts before gone) (k : Unmoved s t) :
    t.Accounts before gone := by
  obtain ⟨since, hsince, hperm⟩ := h
  refine ⟨since, k.released.trans hsince, ?_⟩
  rw [barrier, k.current, k.length]
  exact hperm

/-- A watch that is begun is in force, with a number of its own. -/
theorem Accounts.beginOnce {s : Supervisor σ} (h : s.Accounts before gone) (e : Endpoint) :
    (s.beginOnce e).Accounts before gone := by
  obtain ⟨since, hsince, hperm⟩ := h
  have hcalls := unmoved_foldl_interject (s.addWatch e)
    (s.terms.greeting (s.watches.map Watch.origin) e)
  have hreleased : (s.beginOnce e).released = s.released := by
    rw [Supervisor.beginOnce, released, enlist, List.filterMap_append]
    exact (List.append_nil _).trans hcalls.released
  have hbarrier : (s.beginOnce e).barrier = s.barrier ++ [s.watches.length] := by
    rw [Supervisor.beginOnce, barrier, enlist, List.map_append, hcalls.current]
    rfl
  have hwatches : (s.beginOnce e).watches.length = s.watches.length + 1 := by
    exact hcalls.length.trans List.length_append
  have hmove : (s.barrier ++ [s.watches.length] ++ (gone ++ since)).Perm
      (s.barrier ++ (gone ++ since) ++ [s.watches.length]) := by
    rw [List.append_assoc, List.append_assoc s.barrier]
    exact List.perm_append_comm.append_left s.barrier
  refine ⟨since, hreleased.trans hsince, ?_⟩
  rw [hbarrier, hwatches, List.range_succ]
  exact hmove.trans (hperm.append_right [s.watches.length])

omit [Strategy σ] in
/-- A pass moves the watches on endpoints that are not chosen from force to the released ones. -/
theorem Accounts.releaseUnchosen {s : Supervisor σ} (h : s.Accounts before gone)
    (chosen : List Endpoint) : (s.releaseUnchosen chosen).Accounts before gone := by
  obtain ⟨since, hsince, hperm⟩ := h
  let unchosen := (s.current.filter (fun entry => !chosen.contains entry.1)).map Prod.snd
  have hreleased : (s.releaseUnchosen chosen).released = s.released ++ unchosen := by
    simp [Supervisor.releaseUnchosen, released, unchosen, List.filterMap_map, Function.comp_def,
      Effect.released?]
  have hsplit : ((s.releaseUnchosen chosen).barrier ++ unchosen).Perm s.barrier := by
    have hentries := List.filter_append_perm (fun entry => chosen.contains entry.1) s.current
    rw [barrier, ← List.map_append]
    exact hentries.map Prod.snd
  have hmove : ((s.releaseUnchosen chosen).barrier ++ (gone ++ (since ++ unchosen))).Perm
      ((s.releaseUnchosen chosen).barrier ++ unchosen ++ (gone ++ since)) := by
    rw [List.append_assoc, ← List.append_assoc gone]
    exact List.perm_append_comm.append_left _
  refine ⟨since ++ unchosen, by rw [hreleased, hsince, List.append_assoc], ?_⟩
  exact (hmove.trans (hsplit.append_right _)).trans hperm

/-- Scores leave the account right. -/
theorem keptByReports_accounts :
    KeptByReports fun s : Supervisor σ => s.Accounts before gone where
  enterScore s w score final h := h.unmoved (unmoved_enterScore s w score final)
  judge _ _ _ h := h
  markReported s _ h := h.unmoved (unmoved_modifyWatch s fun _ _ => rfl)
  setRequested _ _ h := h

/-- Passes leave the account right. -/
theorem keptByPasses_accounts : KeptByPasses fun s : Supervisor σ => s.Accounts before gone where
  setRequested _ _ h := h
  setRefreshing _ _ h := h
  beginOnce _ e _ h := h.beginOnce e
  releaseUnchosen _ chosen h := h.releaseUnchosen chosen
  noteChecked _ h := h

/-- Every event but the beginning of the close leaves the account right. -/
theorem Step.accounts {s t : Supervisor σ} {event : Event} (k : Step s event t)
    (hrest : s.refreshing = false) (hclose : event ≠ .beginClose) (h : s.Accounts before gone) :
    t.Accounts before gone := by
  cases k with
  | @offer candidates _ hoffer =>
    have hadopted : (s.adopt candidates).Accounts before gone := h
    exact keptByPasses_accounts.offer (fun u reason hu => hu.unmoved (unmoved_republishIf u reason))
      hrest hoffer hadopted
  | report hreport =>
    exact keptByPasses_accounts.deliver keptByReports_accounts hrest hreport h
  | @retire i _ _ hretire =>
    obtain rfl | ⟨w, -, -, hretire⟩ := retire_eq_some hretire
    · exact h
    · have hretired := h.unmoved (unmoved_modifyWatch s (i := i) (f := Watch.retire) fun _ _ => rfl)
      exact keptByPasses_accounts.deliver keptByReports_accounts (by exact hrest) hretire hretired
  | start _ =>
    have hstarted : Accounts before gone { s with started := true } := h
    exact hstarted.unmoved (unmoved_republishIf _ true)
  | beginClose _ => exact absurd rfl hclose
  | enterJob hjob =>
    obtain ⟨f, rfl, horigin, -⟩ := eq_modifyWatch_of_enterJob hjob
    exact h.unmoved (unmoved_modifyWatch s horigin)
  | releaseJob i id => exact h.unmoved (unmoved_modifyWatch s fun _ _ => rfl)
  | _ => exact h

/-! ## In the middle of a call -/

/-- No watch in force has left, and none has left twice. -/
def Separate (before gone : List Nat) (s : Supervisor σ) : Prop :=
  ∃ since, s.released = before ++ since ∧ (s.barrier ++ (gone ++ since)).Nodup

omit [Strategy σ] in
/-- Where the account is right, no watch in force has left. -/
theorem Accounts.separate {s : Supervisor σ} (h : s.Accounts before gone) :
    s.Separate before gone := by
  obtain ⟨since, hsince, hperm⟩ := h
  exact ⟨since, hsince, hperm.nodup_iff.mpr List.nodup_range⟩

omit [Strategy σ] in
/-- Where no watch moves, those in force stay apart from those that have left. -/
theorem Separate.unmoved {s t : Supervisor σ} (h : s.Separate before gone) (k : Unmoved s t) :
    t.Separate before gone := by
  obtain ⟨since, hsince, hnodup⟩ := h
  refine ⟨since, k.released.trans hsince, ?_⟩
  rw [barrier, k.current]
  exact hnodup

/-- In the middle of passes no watch in force has left, and none has left twice. -/
theorem Within.separate {s u : Supervisor σ} (h : Within s u) (hs : s.Accounts before gone) :
    u.Separate before gone := by
  induction h with
  | @call s t reached rest e done _ _ _ _ ht _ _ =>
    have hcleared : (s.setRequested false).Accounts before gone := hs
    have hbefore : t.Accounts before gone := by
      rw [ht]
      exact keptByPasses_accounts.ensureWatches (hcleared.releaseUnchosen _) reached
    have hadded : (t.addWatch e).Separate before gone := hbefore.separate
    exact hadded.unmoved (unmoved_foldl_interject _ done)
  | @next s u _ _ _ ih => exact ih (keptByPasses_accounts.passOnce hs)

/-- The same holds in the middle of a request. -/
theorem WithinRequest.separate {s u : Supervisor σ} (h : WithinRequest s u)
    (hs : s.Accounts before gone) : u.Separate before gone :=
  h.2.separate hs

/-- The same holds in the middle of taking in a score. -/
theorem WithinScore.separate {s u : Supervisor σ} {w : Watch} {score : Float} {final : Bool}
    (h : WithinScore s w score final u) (hs : s.Accounts before gone) :
    u.Separate before gone := by
  have hentered := hs.unmoved (unmoved_enterScore s w score final)
  cases h with
  | entered => exact hentered.separate
  | passes ht _ h =>
    subst ht
    exact h.separate hentered

/-- The same holds in the middle of every event. -/
theorem WithinEvent.separate {s u : Supervisor σ} {event : Event} (h : WithinEvent s event u)
    (hs : s.Accounts before gone) : u.Separate before gone := by
  cases h with
  | offer h => exact h.separate hs
  | report _ h => exact h.separate hs
  | retire _ _ _ h => exact h.separate (hs.unmoved (unmoved_modifyWatch s fun _ _ => rfl))

/-! ## Retired watches -/

section

omit [Strategy σ]

/-- Is the watch one on this endpoint? -/
def isOn (s : Supervisor σ) (e : Endpoint) (i : Nat) : Bool :=
  (s.watches[i]?).any (fun w => w.origin == e)

/-- Is there such a watch, and is it retired? -/
def isRetired (s : Supervisor σ) (i : Nat) : Bool :=
  (s.watches[i]?).any Watch.retired

/-- A watch that is added is not retired. -/
theorem isRetired_addWatch (s : Supervisor σ) (e : Endpoint) :
    (s.addWatch e).isRetired = s.isRetired :=
  funext (any_addWatch s rfl)

/-- A change of a watch that does not concern its end retires none. -/
theorem isRetired_modifyWatch {s : Supervisor σ} {i : Nat} {f : Watch → Watch}
    (h : ∀ w, s.watches[i]? = some w → (f w).retired = w.retired) :
    (s.modifyWatch i f).isRetired = s.isRetired :=
  funext (any_modifyWatch h)

/-- A publication retires no watch. -/
theorem isRetired_republishIf (s : Supervisor σ) (reason : Bool) :
    (s.republishIf reason).isRetired = s.isRetired :=
  republishIf_keeps (P := fun t => t.isRetired = s.isRetired) (fun _ _ _ h => h) rfl reason

/-- To retire a watch retires it and no other. -/
theorem isRetired_retire {s : Supervisor σ} {i : Nat} (hi : i < s.watches.length) (j : Nat) :
    (s.modifyWatch i Watch.retire).isRetired j = (s.isRetired j || j == i) := by
  by_cases hij : i = j
  · subst hij
    simp [isRetired, modifyWatch, hi, Watch.retired, Watch.retire, Roster.close]
  · have hji : (j == i) = false := by simpa using fun h => hij h.symm
    simp [isRetired, modifyWatch, hij, hji]

end

/-- Scores retire no watch. -/
theorem keptByReports_isRetired (retired : Nat → Bool) :
    KeptByReports fun s : Supervisor σ => s.isRetired = retired where
  enterScore s w score final h := by
    obtain ⟨book, feed, outbox, heq⟩ := enterScore_eq s w score final
    rw [heq]
    exact h
  judge _ _ _ h := h
  markReported _ i h :=
    (isRetired_modifyWatch (i := i) (f := Watch.markReported) fun _ _ => rfl).trans h
  setRequested _ _ h := h

/-- Passes retire no watch, and those that they begin are not retired. -/
theorem keptByPasses_isRetired (retired : Nat → Bool) :
    KeptByPasses fun s : Supervisor σ => s.isRetired = retired where
  setRequested _ _ h := h
  setRefreshing _ _ h := h
  beginOnce _ e _ h :=
    beginOnce_keeps (P := fun s => s.isRetired = retired)
      (fun _ call ht => (keptByReports_isRetired retired).interject
        (fun _ _ hu => (isRetired_republishIf _ _).trans hu) ht call)
      (fun t f ht => (isRetired_addWatch t f).trans ht) (fun _ _ _ ht => ht) h e
  releaseUnchosen _ _ h := h
  noteChecked _ h := h

/-- The end of a watch, with the passes that follow, retires it and no other. -/
theorem isRetired_of_retire {s t : Supervisor σ} (hrest : s.refreshing = false) {i : Nat}
    (hi : i < s.watches.length) (h : s.retire i = some t) (j : Nat) :
    t.isRetired j = (s.isRetired j || j == i) := by
  have hw : s.watches[i]? = some s.watches[i] := List.getElem?_eq_getElem hi
  cases hretired : s.watches[i].retired with
  | true =>
    have hsame : t = s := by simpa [retire, hw, hretired] using h.symm
    by_cases hji : j = i
    · simp [hsame, hji, isRetired, hw, hretired]
    · simp [hsame, hji]
  | false =>
    have hdeliver : (s.modifyWatch i Watch.retire).deliver i 0.0 true = some t := by
      simpa [retire, hw, hretired] using h
    have hafter : t.isRetired = (s.modifyWatch i Watch.retire).isRetired :=
      (keptByPasses_isRetired _).deliver (keptByReports_isRetired _) (by exact hrest) hdeliver rfl
    rw [hafter, isRetired_retire hi]

/-- An event leaves the same watches retired, or it is the end of a watch. -/
theorem Step.isRetired_cases {s t : Supervisor σ} {event : Event} (k : Step s event t)
    (hrest : s.refreshing = false) :
    t.isRetired = s.isRetired ∨
      ∃ i, event = .retire i ∧ ∀ j, t.isRetired j = (s.isRetired j || j == i) := by
  have hkeeps := keptByPasses_isRetired (σ := σ) s.isRetired
  cases k with
  | @offer candidates _ hoffer =>
    have hpublish (u : Supervisor σ) (reason : Bool) (hu : u.isRetired = s.isRetired) :
        (u.republishIf reason).isRetired = s.isRetired := (isRetired_republishIf u reason).trans hu
    exact Or.inl (hkeeps.offer hpublish hrest hoffer rfl)
  | report hreport => exact Or.inl (hkeeps.deliver (keptByReports_isRetired _) hrest hreport rfl)
  | @retire i _ _ hretire =>
    by_cases hi : i < s.watches.length
    · exact Or.inr ⟨i, rfl, isRetired_of_retire hrest hi hretire⟩
    · have hsame : t = s := by
        simpa [Supervisor.retire, List.getElem?_eq_none (Nat.le_of_not_lt hi)] using hretire.symm
      exact Or.inl (congrArg Supervisor.isRetired hsame)
  | start _ =>
    obtain ⟨feed, outbox, heq⟩ := republish_eq { s with started := true }
    rw [finishStartup, heq]
    exact Or.inl rfl
  | enterJob hjob =>
    obtain ⟨f, rfl, -, hretired, -⟩ := eq_modifyWatch_of_enterJob hjob
    exact Or.inl (isRetired_modifyWatch hretired)
  | releaseJob i id => exact Or.inl (isRetired_modifyWatch fun _ _ => rfl)
  | _ => exact Or.inl rfl

/-- A watch that is retired stays so after every event. -/
theorem Step.isRetired_mono {s t : Supervisor σ} {event : Event} (k : Step s event t)
    (hrest : s.refreshing = false) {i : Nat} (hi : s.isRetired i = true) :
    t.isRetired i = true := by
  rcases k.isRetired_cases hrest with hsame | ⟨j, -, hmore⟩
  · rw [hsame]
    exact hi
  · rw [hmore i, hi]
    rfl

/-- A watch that is retired stays so for good. -/
theorem Run.isRetired_mono {s t : Supervisor σ} {events : List Event} (h : Run s events t)
    (hrest : s.refreshing = false) {i : Nat} (hi : s.isRetired i = true) :
    t.isRetired i = true :=
  (h.keeps (P := fun u => u.isRetired i = true ∧ u.refreshing = false)
    (fun _ _ _ hu k => ⟨k.isRetired_mono hu.2 hu.1, k.refreshing hu.2⟩) ⟨hi, hrest⟩).1

end HealthWatch.Supervisor
