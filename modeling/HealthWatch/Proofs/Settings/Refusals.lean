import HealthWatch.Settings.Problem
import HealthWatch.Supervisor.Builder

/-!
# Problems and refusals

What is wrong with a port or with the bounds of a strategy is judged twice: as a problem of the
settings, by cases on how the strategy is written, and by the builder that the settings are set in,
which is left with optional fields only. Both come to the same. The builder refuses with what the
first problem with its options stands for, and takes the settings where there is none
(`build_configure`). Only a strategy that is to be bounded and has no bound is a problem that the
builder cannot see.
-/

set_option autoImplicit false

namespace HealthWatch

/-! ## Problems that a builder has as well -/

/-- Is the problem one with the port or with the bounds of a strategy? -/
def Problem.concernsOptions : Problem → Bool
  | zeroPort | twoBounds | noBound | quota _ => true
  | _ => false

/-- How a builder refuses options with the problem. That a bound is missing, it cannot see. -/
def Problem.refusal? : Problem → Option BuildError
  | zeroPort => some .invalidPort
  | twoBounds => some .conflictingQuotas
  | quota error => some (.invalidQuota error)
  | _ => none

/-- Is it the port, a bound or the choice of a strategy that a builder refuses? -/
def BuildError.concernsOptions : BuildError → Bool
  | invalidPort | invalidQuota _ | conflictingQuotas | conflictingStrategy => true
  | noRuntime | source _ => false

namespace Problem

/-- A problem that a builder refuses stands for a refusal of an option. -/
theorem concernsOptions_of_refusal? {p : Problem} {error : BuildError}
    (h : p.refusal? = some error) : error.concernsOptions = true := by
  cases p <;> cases h <;> rfl

/-- A builder refuses for every problem with the options but for a missing bound. -/
theorem exists_refusal {p : Problem} (h : p.concernsOptions = true) (hbound : p ≠ .noBound) :
    ∃ error, p.refusal? = some error := by
  cases p with
  | noBound => exact absurd rfl hbound
  | zeroPort | twoBounds | quota => exact ⟨_, rfl⟩
  | _ => cases h

/-- The refusal that the first problem with the options stands for. -/
def refusalOf (problems : List Problem) : Option BuildError :=
  problems.findSome? refusal?

/-- Only problems with the options bring about refusals. -/
theorem refusalOf_filter (problems : List Problem) :
    refusalOf (problems.filter concernsOptions) = refusalOf problems := by
  induction problems with
  | nil => rfl
  | cons p rest ih =>
    cases p with
    | zeroPort | twoBounds | quota => rfl
    | _ => exact ih

end Problem

open Problem

/-! ## Problems with the options -/

/-- All problems of a strategy are with the options. -/
theorem StrategySettings.filter_problems (s : StrategySettings) :
    s.problems.filter concernsOptions = s.problems := by
  have hquota (checked : Except QuotaError Quota) :
      (Problem.ofCheck checked).filter concernsOptions = Problem.ofCheck checked := by
    cases checked <;> rfl
  match s with
  | all | bounded (some _) (some _) | bounded none none => rfl
  | bounded (some _) none | bounded none (some _) => exact hquota _

/-- No problem of discovery is with the options. -/
theorem DiscoverySettings.filter_problems (s : DiscoverySettings) :
    s.problems.filter concernsOptions = [] := by
  have hrepeated : ((repeatedEndpoints [] s.endpoints).map repeatedEndpoint).filter
      concernsOptions = [] := by
    simp [concernsOptions]
  unfold problems
  dsimp only
  rw [List.filter_append, hrepeated]
  split
  · rfl
  · split <;> rfl

/-- No general problem is with the options. -/
theorem GeneralSettings.filter_problems (s : GeneralSettings) :
    s.problems.filter concernsOptions = [] := by
  unfold problems
  rw [List.filter_append]
  split <;> split <;> rfl

namespace CheckSettings

/-- The problems with the port, and then those with the bounds. -/
def optionProblems (s : CheckSettings) : List Problem :=
  (if s.port == some 0 then [.zeroPort] else []) ++ s.strategy.problems

/-- Of the problems of a check, those with the options are of its port and its strategy. -/
theorem filter_problems (s : CheckSettings) :
    s.problems.filter concernsOptions = s.optionProblems := by
  have hpath : s.pathProblems.filter concernsOptions = [] := by
    unfold pathProblems
    split
    · rfl
    · rfl
    · split <;> rfl
  have htimes (c : Bool) (p : Problem) (hp : p.concernsOptions = false) :
      (if c then [p] else []).filter concernsOptions = [] := by
    cases c <;> simp [hp]
  have hjitter (c : Bool) :
      (if c then [] else [jitterRange s.jitter]).filter concernsOptions = [] := by
    cases c <;> rfl
  have hport : (if s.port == some 0 then [zeroPort] else []).filter concernsOptions =
      if s.port == some 0 then [zeroPort] else [] := by
    split <;> rfl
  simp only [problems, List.filter_append, hpath, hport, htimes _ zeroTimeout rfl,
    htimes _ zeroInterval rfl, hjitter, s.strategy.filter_problems, List.nil_append,
    List.append_nil, optionProblems]

end CheckSettings

/-- All problems with the options are problems of the check. -/
theorem Settings.filter_problems (s : Settings) :
    s.problems.filter concernsOptions = s.check.optionProblems := by
  rw [problems, List.filter_append, List.filter_append, s.discovery.filter_problems,
    s.general.filter_problems, s.check.filter_problems, List.nil_append, List.append_nil]

/-- A port of zero is refused first, and then what is wrong with the bounds. -/
theorem Settings.refusalOf_problems (s : Settings) :
    refusalOf s.problems =
      if s.check.port = some 0 then some .invalidPort
      else refusalOf s.check.strategy.problems := by
  rw [← refusalOf_filter, s.filter_problems, CheckSettings.optionProblems]
  by_cases hport : s.check.port = some 0
  · rw [if_pos (beq_iff_eq.mpr hport), if_pos hport]
    rfl
  · rw [if_neg (mt beq_iff_eq.mp hport), if_neg hport, List.nil_append]

/-! ## What is set in a builder -/

/-- A number that is taken as a bound is the bound. -/
theorem Quota.eq_count_of_ofCount {limit : Nat} {quota : Quota} (h : ofCount limit = .ok quota) :
    quota = count limit := by
  unfold ofCount at h
  split at h <;> cases h
  rfl

/-- A share that is taken as a bound is the bound. -/
theorem Quota.eq_ratio_of_ofRatio {share : Float} {quota : Quota} (h : ofRatio share = .ok quota) :
    quota = ratio share := by
  unfold ofRatio at h
  split at h <;> cases h
  rfl

/-- The builder judges a bound by the same check that a problem comes from. -/
theorem checked_eq {checked : Except QuotaError Quota} {quota : Quota}
    (hquota : ∀ {q}, checked = .ok q → q = quota) :
    (checked.mapError BuildError.invalidQuota).map some =
      match refusalOf (Problem.ofCheck checked) with
      | some error => .error error
      | none => .ok (some quota) := by
  cases checked with
  | error error => rfl
  | ok q =>
    rw [hquota rfl]
    rfl

namespace StrategySettings

/-- The number of endpoints that is set as a bound. -/
def count? : StrategySettings → Option Nat
  | all => none
  | bounded count _ => count.map UInt64.toNat

/-- The share that is set as a bound. -/
def share? : StrategySettings → Option Float
  | all => none
  | bounded _ share => share

/-- The quota that bounds come to where they are taken. -/
def quota (s : StrategySettings) : Option Quota :=
  (s.count?.map .count).or (s.share?.map .ratio)

end StrategySettings

namespace CheckSettings

/-- What settings leave in a builder that had no options: each option, and the two bounds. -/
theorem configure_unset (s : CheckSettings) (runtime : Bool) :
    s.configure { runtime := runtime } =
      { scheme := s.scheme
        port := s.port
        backoff := some s.backoff
        maxCount := s.strategy.count?
        maxRatio := s.strategy.share?
        runtime := runtime } := by
  unfold configure
  cases s.port <;> match s.strategy with
    | .all => rfl
    | .bounded none none => rfl
    | .bounded none (some _) => rfl
    | .bounded (some _) none => rfl
    | .bounded (some _) (some _) => rfl

/-- The bounds are refused as their first problem says, and else they come to their quota. -/
theorem policy_configure (s : CheckSettings) (runtime : Bool) :
    (s.configure { runtime := runtime }).policy =
      match refusalOf s.strategy.problems with
      | some error => .error error
      | none => .ok (.ofQuota s.strategy.quota) := by
  have hquota : (s.configure { runtime := runtime }).quota =
      match refusalOf s.strategy.problems with
      | some error => .error error
      | none => .ok s.strategy.quota := by
    rw [configure_unset]
    cases s.strategy with
    | all => rfl
    | bounded count share =>
      cases count <;> cases share
      · rfl
      · exact checked_eq Quota.eq_ratio_of_ofRatio
      · exact checked_eq Quota.eq_count_of_ofCount
      · rfl
  rw [Builder.policy, hquota, configure_unset]
  cases refusalOf s.strategy.problems <;> rfl

end CheckSettings

/-! ## Building with settings -/

namespace Settings

/-- The terms of the supervisors that are built with settings. -/
def terms (s : Settings) (greeting : List Endpoint → Endpoint → List Call) : Terms :=
  { scheme := s.check.scheme
    port := s.check.port
    backoff := s.check.backoff
    greeting := greeting }

/-- What a builder makes of settings, where nothing else is set but whether there is a runtime. -/
def build (s : Settings) (runtime : Bool) (greeting : List Endpoint → Endpoint → List Call) :
    Except BuildError (Supervisor Policy) :=
  (s.check.configure { runtime := runtime }).build greeting

/-- A builder refuses what the first problem with the options says. Where there is none, it builds
a supervisor with just these settings, if it has a runtime. -/
theorem build_eq (s : Settings) (runtime : Bool)
    (greeting : List Endpoint → Endpoint → List Call) :
    s.build runtime greeting =
      match refusalOf s.problems with
      | some error => .error error
      | none =>
        if runtime then
          .ok (Supervisor.fresh (s.terms greeting) (.ofQuota s.check.strategy.quota))
        else .error .noRuntime := by
  rw [build, Builder.build, s.check.policy_configure, s.check.configure_unset,
    s.refusalOf_problems]
  by_cases hport : s.check.port = some 0
  · rw [if_pos hport, if_pos hport]
    rfl
  · rw [if_neg hport, if_neg hport]
    cases refusalOf s.check.strategy.problems with
    | some error => rfl
    | none => cases runtime <;> rfl

/-- A missing bound is a problem just of a strategy that is to be bounded and has neither. -/
theorem noBound_mem_problems_iff (s : Settings) :
    .noBound ∈ s.problems ↔ s.check.strategy = .bounded none none := by
  have hfilter : .noBound ∈ s.problems ↔ .noBound ∈ s.check.optionProblems := by
    rw [← s.filter_problems, List.mem_filter]
    exact (and_iff_left rfl).symm
  have hquota (checked : Except QuotaError Quota) : .noBound ∉ Problem.ofCheck checked := by
    cases checked <;> simp [Problem.ofCheck]
  rw [hfilter]
  match hstrategy : s.check.strategy with
  | .all | .bounded none none | .bounded (some _) (some _) =>
    simp [CheckSettings.optionProblems, hstrategy, StrategySettings.problems]
  | .bounded (some _) none | .bounded none (some _) =>
    simp [CheckSettings.optionProblems, hstrategy, StrategySettings.problems, hquota]

/-- Problems and refusals agree. What a builder refuses in the port or the bounds is a problem of
the settings, and with such a problem it refuses them; that a bound is missing is the one problem
it overlooks, and then all candidates are checked. Settings with no problem make a supervisor
whose strategy has the bound that is set. -/
theorem builder_refuses_just_the_problems (s : Settings) (runtime : Bool)
    (greeting : List Endpoint → Endpoint → List Call) :
    (∀ error, s.build runtime greeting = .error error → error.concernsOptions = true →
      ∃ p ∈ s.problems, p.refusal? = some error) ∧
    (∀ p ∈ s.problems, p.concernsOptions = true → p ≠ .noBound →
      ∃ error, s.build runtime greeting = .error error ∧ error.concernsOptions = true) ∧
    (.noBound ∈ s.problems ↔ s.check.strategy = .bounded none none) ∧
    (.noBound ∈ s.problems → s.check.port ≠ some 0 → runtime = true →
      ∃ supervisor, s.build runtime greeting = .ok supervisor ∧ supervisor.strategy = .all {}) ∧
    (s.problems = [] → runtime = true →
      ∃ supervisor, s.build runtime greeting = .ok supervisor ∧
        match s.check.strategy with
        | .all => supervisor.strategy = .all {}
        | .bounded (some count) none =>
          supervisor.strategy = .bounded { quota := .count count.toNat }
        | .bounded none (some share) => supervisor.strategy = .bounded { quota := .ratio share }
        | _ => False) := by
  rw [build_eq]
  refine ⟨fun error hbuilt hoptions => ?_, fun p hp hoptions hbound => ?_,
    s.noBound_mem_problems_iff, fun hnone hport hruntime => ?_, fun hproblems hruntime => ?_⟩
  · cases hfirst : refusalOf s.problems with
    | some first =>
      rw [hfirst] at hbuilt
      cases hbuilt
      exact List.exists_of_findSome?_eq_some hfirst
    | none =>
      rw [hfirst] at hbuilt
      cases runtime <;> cases hbuilt
      cases hoptions
  · obtain ⟨error, herror⟩ := exists_refusal hoptions hbound
    cases hfirst : refusalOf s.problems with
    | some first =>
      obtain ⟨q, -, hq⟩ := List.exists_of_findSome?_eq_some hfirst
      exact ⟨first, rfl, concernsOptions_of_refusal? hq⟩
    | none =>
      rw [List.findSome?_eq_none_iff.mp hfirst p hp] at herror
      cases herror
  · rw [refusalOf_problems, if_neg hport, s.noBound_mem_problems_iff.mp hnone, hruntime]
    exact ⟨_, rfl, rfl⟩
  · have hoptions : s.check.optionProblems = [] := by
      rw [← s.filter_problems, hproblems]
      rfl
    have hstrategy : s.check.strategy.problems = [] := (List.append_eq_nil_iff.mp hoptions).2
    rw [hproblems, hruntime]
    refine ⟨_, rfl, ?_⟩
    -- a strategy without problems takes all or has just one bound
    generalize s.check.strategy = strategy at hstrategy
    match strategy with
    | .all | .bounded (some _) none | .bounded none (some _) => rfl
    | .bounded (some _) (some _) | .bounded none none => cases hstrategy

/-- Two endpoints at once: no problem, and a supervisor with that bound. -/
theorem two_at_once_are_built :
    let s : Settings :=
      { check := { strategy := .bounded (some 2) none }
        discovery := { endpoints := [{ host := "a", port := some 80 }] } }
    s.problems = [] ∧
      ∃ supervisor, s.build true (fun _ _ => []) = .ok supervisor ∧
        supervisor.strategy = .bounded { quota := .count 2 } := by
  have hproblems : Settings.problems
      { check := { strategy := .bounded (some 2) none }
        discovery := { endpoints := [{ host := "a", port := some 80 }] } } = [] := by
    decide +kernel
  exact ⟨hproblems, (builder_refuses_just_the_problems _ true _).2.2.2.2 hproblems rfl⟩

end Settings

end HealthWatch
