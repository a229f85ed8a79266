import HealthWatch.HealthBook
import Mathlib.Data.List.Induction

/-!
# A book is its log

Scores are entered in a book, endpoints are struck out, and all but some endpoints are dropped at
once. The book keeps scores and healthy endpoints in two lists, and each of these entries changes
both. What the book says after any log of entries can be read off the log: a score stands if it was
entered for its endpoint and no later entry overrules it (`Stands`), and an endpoint is healthy if
a score above zero stands for it (`book_is_its_log`).
-/

set_option autoImplicit false

namespace HealthWatch.HealthBook

/-- Something that is done to a book. -/
inductive Entry where
  | record (endpoint : Endpoint) (score : Float)
  | forget (endpoint : Endpoint)
  | keepOnly (endpoints : List Endpoint)

namespace Entry

/-- Does an entry overrule what was entered for an endpoint before? -/
def Overrules (entry : Entry) (e : Endpoint) : Prop :=
  match entry with
  | record f _ => f = e
  | forget f => f = e
  | keepOnly endpoints => e ∉ endpoints

instance (entry : Entry) (e : Endpoint) : Decidable (entry.Overrules e) :=
  match entry with
  | record f _ => inferInstanceAs (Decidable (f = e))
  | forget f => inferInstanceAs (Decidable (f = e))
  | keepOnly endpoints => inferInstanceAs (Decidable (e ∉ endpoints))

/-- The score that an entry gives to the endpoints that it overrules, if it gives one. -/
def score? : Entry → Option Float
  | record _ score => some score
  | forget _ => none
  | keepOnly _ => none

end Entry

/-- The book after an entry. -/
def enter (b : HealthBook) : Entry → HealthBook
  | .record e score => b.record e score
  | .forget e => b.forget e
  | .keepOnly endpoints => b.keepOnly endpoints

/-- What an entry is answered with: whether a score turned its endpoint healthy or unhealthy, and
whether an endpoint that is struck out was healthy. -/
def answer? (b : HealthBook) : Entry → Option Bool
  | .record e score => some (b.turns e score)
  | .forget e => some (b.isHealthy e)
  | .keepOnly _ => none

/-- The book in which all entries of a log were made. -/
def ofLog (log : List Entry) : HealthBook :=
  log.foldl enter empty

/-- The book of a log is kept entry by entry. -/
theorem ofLog_concat (log : List Entry) (entry : Entry) :
    ofLog (log ++ [entry]) = (ofLog log).enter entry := by
  simp [ofLog]

/-! ## One entry -/

/-- An entry that overrules what was said of an endpoint decides its score, and no other entry has a
say in it. -/
theorem score?_enter (b : HealthBook) (entry : Entry) (e : Endpoint) :
    (b.enter entry).score? e = if entry.Overrules e then entry.score? else b.score? e := by
  cases entry with
  | record f score => simp [enter, score?_record, Entry.Overrules, Entry.score?, eq_comm]
  | forget f => simp [enter, score?_forget, Entry.Overrules, Entry.score?, eq_comm]
  | keepOnly endpoints => by_cases he : e ∈ endpoints <;>
      simp [enter, score?_keepOnly, Entry.Overrules, Entry.score?, he]

/-- An entry leaves what the book says of the endpoints that it does not overrule. -/
theorem enter_of_not_overrules (b : HealthBook) {entry : Entry} {e : Endpoint}
    (h : ¬entry.Overrules e) :
    (b.enter entry).score? e = b.score? e ∧ (b.enter entry).isHealthy e = b.isHealthy e := by
  have hscore : (b.enter entry).score? e = b.score? e := by simp [score?_enter, h]
  exact ⟨hscore, by rw [isHealthy_eq, isHealthy_eq, hscore]⟩

/-- A score is answered with whether it changed the health of its endpoint. -/
theorem turns_eq_true_iff (b : HealthBook) (e : Endpoint) (score : Float) :
    b.turns e score = true ↔ (b.record e score).isHealthy e ≠ b.isHealthy e := by
  simp [turns_eq, isHealthy_record]

/-! ## Scores that stand -/

/-- A score was entered for an endpoint, and no entry after it overrules it. -/
def Stands (log : List Entry) (e : Endpoint) (score : Float) : Prop :=
  ∃ earlier later, log = earlier ++ .record e score :: later ∧
    ∀ entry ∈ later, ¬entry.Overrules e

/-- Nothing stands in an empty log. -/
theorem not_stands_nil (e : Endpoint) (score : Float) : ¬Stands [] e score := by
  simp [Stands]

/-- After one more entry those scores stand that it enters, and those that stood and that it does
not overrule. -/
theorem stands_concat_iff {log : List Entry} {entry : Entry} {e : Endpoint} {score : Float} :
    Stands (log ++ [entry]) e score ↔
      entry = .record e score ∨ ¬entry.Overrules e ∧ Stands log e score := by
  constructor
  · rintro ⟨earlier, later, hlog, hlater⟩
    rcases List.eq_nil_or_concat later with rfl | ⟨later, last, rfl⟩
    · obtain ⟨-, hlast⟩ := List.append_inj' hlog rfl
      left
      simpa using hlast
    · have hsplit : log ++ [entry] = (earlier ++ .record e score :: later) ++ [last] := by
        simpa using hlog
      obtain ⟨hbefore, hlast⟩ := List.append_inj' hsplit rfl
      obtain rfl : entry = last := by simpa using hlast
      right
      exact ⟨hlater entry (by simp), earlier, later, hbefore,
        fun other hother => hlater other (by simp [hother])⟩
  · rintro (rfl | ⟨hentry, earlier, later, rfl, hlater⟩)
    · exact ⟨log, [], rfl, by simp⟩
    · refine ⟨earlier, later ++ [entry], by simp, ?_⟩
      intro other hother
      rcases List.mem_append.mp hother with hother | hother
      · exact hlater other hother
      · rwa [List.mem_singleton.mp hother]

/-- The score of an endpoint is the one that stands for it. -/
theorem score?_ofLog_eq_some_iff {log : List Entry} {e : Endpoint} {score : Float} :
    (ofLog log).score? e = some score ↔ Stands log e score := by
  induction log using List.reverseRecOn with
  | nil => exact iff_of_false (by simp [ofLog, empty, HealthBook.score?]) (not_stands_nil e score)
  | append_singleton log entry ih =>
    rw [ofLog_concat, score?_enter, stands_concat_iff, ← ih]
    by_cases h : entry.Overrules e
    · -- the entry alone decides
      rw [if_pos h]
      cases entry with
      | record f found =>
        obtain rfl : f = e := h
        simp [Entry.score?, Entry.Overrules]
      | forget f => simp [Entry.score?, h]
      | keepOnly endpoints => simp [Entry.score?, h]
    · have hother : entry ≠ .record e score := by
        rintro rfl
        exact h rfl
      simp [h, hother]

/-- An endpoint is healthy when a score above zero stands for it. -/
theorem isHealthy_ofLog_iff {log : List Entry} {e : Endpoint} :
    (ofLog log).isHealthy e = true ↔ ∃ score, Stands log e score ∧ 0.0 < score := by
  rw [isHealthy_eq, Option.any_eq_true]
  simp only [score?_ofLog_eq_some_iff, positive, decide_eq_true_iff]

/-! ## Main statement -/

/-- After any log: an endpoint's score is the one that stands for it, and it is healthy if that is
above zero. A score is answered with whether it changes the health of its endpoint, and striking an
endpoint out with whether it was healthy. An entry changes nothing on an endpoint that it does not
overrule. The healthy ones of a list, and its snapshot, say of each endpoint in turn what the book
says of it. -/
theorem book_is_its_log (log : List Entry) :
    (∀ e score, (ofLog log).score? e = some score ↔ Stands log e score) ∧
    (∀ e, (ofLog log).isHealthy e = true ↔ ∃ score, Stands log e score ∧ 0.0 < score) ∧
    (∀ e score, (ofLog log).answer? (.record e score) = some true ↔
      (ofLog (log ++ [.record e score])).isHealthy e ≠ (ofLog log).isHealthy e) ∧
    (∀ e, (ofLog log).answer? (.forget e) = some true ↔ ∃ score, Stands log e score ∧ 0.0 < score) ∧
    (∀ entry e, ¬entry.Overrules e →
      (ofLog (log ++ [entry])).score? e = (ofLog log).score? e ∧
        (ofLog (log ++ [entry])).isHealthy e = (ofLog log).isHealthy e) ∧
    ∀ endpoints, (ofLog log).healthyOf endpoints = endpoints.filter (ofLog log).isHealthy ∧
      (ofLog log).snapshot endpoints =
        { candidates := endpoints.length
          healthy := ((ofLog log).healthyOf endpoints).length
          endpoints := endpoints.map fun e =>
            ⟨e, (ofLog log).score? e, (ofLog log).isHealthy e⟩ } := by
  refine ⟨fun e score => score?_ofLog_eq_some_iff, fun e => isHealthy_ofLog_iff, ?_, ?_, ?_, ?_⟩
  · intro e score
    rw [ofLog_concat, enter, ← turns_eq_true_iff, answer?, Option.some.injEq]
  · intro e
    rw [answer?, Option.some.injEq, isHealthy_ofLog_iff]
  · intro entry e h
    rw [ofLog_concat]
    exact enter_of_not_overrules (ofLog log) h
  · intro endpoints
    refine ⟨rfl, ?_⟩
    rw [← healthy_snapshot]
    rfl

/-- An endpoint is struck out, scores without bound and stays when others are dropped. A score of
another endpoint that is no number is answered with no, and changes nothing on the first one. -/
theorem endless_score_stands_after_others :
    let a : Endpoint := { host := "a" }
    let b : Endpoint := { host := "b" }
    let c : Endpoint := { host := "c" }
    let log : List Entry :=
      [.record a 1.0, .record b 1.0, .forget a, .record a (1.0 / 0.0), .keepOnly [c, a]]
    let last : Entry := .record c (0.0 / 0.0)
    (ofLog log).isHealthy b = false ∧ (ofLog log).answer? last ≠ some true ∧
      ¬last.Overrules a ∧ (ofLog (log ++ [last])).score? a = some (1.0 / 0.0) ∧
      (ofLog (log ++ [last])).isHealthy a = true := by
  intro a b c log last
  obtain ⟨hscore, hhealthy, hturned, -, hkept, -⟩ := book_is_its_log log
  have hstands : Stands log a (1.0 / 0.0) :=
    ⟨[.record a 1.0, .record b 1.0, .forget a], [.keepOnly [c, a]], rfl, by decide⟩
  have hother : ¬last.Overrules a := by decide
  obtain ⟨hsame, hstill⟩ := hkept last a hother
  refine ⟨by decide, ?_, hother, ?_, ?_⟩
  · rw [Ne, hturned]
    decide
  · exact hsame.trans ((hscore a _).mpr hstands)
  · exact hstill.trans ((hhealthy a).mpr ⟨_, hstands, by decide⟩)

end HealthWatch.HealthBook
