import HealthWatch.Settings.Problem
import Mathlib

/-!
# Rules for settings

The rules that settings have to keep, in the order in which they are judged, each said without the
way in which it is checked (`Rule.Kept`), and what is told of settings that do not keep one
(`Rule.breach`): a single problem, but for endpoints that are listed again, each of which is a
problem of its own.

The problems of settings are those of the rules that are not kept (`problems_eq_told`). So
settings are valid just if they keep every rule, and whatever else is wrong with them, nothing that
is wrong goes untold (`validate_tells_every_breach`).
-/

set_option autoImplicit false

namespace HealthWatch

/-! ## The order of real numbers -/

section

open Float.Model

/-- To compare two numbers the other way round is to swap the outcome. -/
theorem compare_eq_map_swap (f g : UnpackedFloat) :
    g.compare f = (f.compare g).map Ordering.swap := by
  cases f with
  | notANumber => cases g <;> rfl
  | infinity s =>
    cases g with
    | infinity t => cases s <;> cases t <;> rfl
    | _ => cases s <;> rfl
  | zero s =>
    cases g with
    | notANumber | zero _ => rfl
    | infinity t | finite t _ _ _ => cases t <;> rfl
  | finite s m e hm =>
    cases g with
    | notANumber => rfl
    | infinity t => cases s <;> cases t <;> rfl
    | zero t => cases s <;> rfl
    | finite t n d hn =>
      cases s <;> cases t <;>
        simp [UnpackedFloat.compare, Ordering.swap_then, ← Std.OrientedCmp.eq_swap]

/-- Two numbers can be compared unless one of them is no number. -/
theorem isSome_compare (f g : UnpackedFloat) :
    (f.compare g).isSome = (!f.isNaN && !g.isNaN) := by
  cases f with
  | notANumber => rfl
  | infinity s => cases g <;> cases s <;> rfl
  | zero s =>
    cases g with
    | notANumber | zero _ => rfl
    | infinity t | finite t _ _ _ => cases t <;> rfl
  | finite s m e hm =>
    cases g with
    | notANumber => rfl
    | zero t => cases s <;> rfl
    | infinity t | finite t _ _ _ => cases s <;> cases t <;> rfl

/-- One real number is at most another if both are numbers and the other is not below the one. -/
theorem le_iff_not_lt (x y : Float) :
    x ≤ y ↔ x.isNaN = false ∧ y.isNaN = false ∧ ¬ y < x := by
  show decide ((x.toModel.unpack.compare y.toModel.unpack).any (·.isLE) = true) = true ↔
    x.toModel.unpack.isNaN = false ∧ y.toModel.unpack.isNaN = false ∧
      ¬ decide ((y.toModel.unpack.compare x.toModel.unpack == some .lt) = true) = true
  have hnumbers := isSome_compare x.toModel.unpack y.toModel.unpack
  rw [compare_eq_map_swap x.toModel.unpack]
  cases hcompare : x.toModel.unpack.compare y.toModel.unpack with
  | none =>
    rw [hcompare] at hnumbers
    simp_all
  | some o =>
    rw [hcompare] at hnumbers
    cases o <;> simp_all [Ordering.swap]

/-- What another real number is below is a number. -/
theorem isNaN_eq_false_of_lt {x y : Float} (h : x < y) : y.isNaN = false := by
  have hcompare : decide ((x.toModel.unpack.compare y.toModel.unpack == some .lt) = true) = true :=
    h
  have hnumbers := isSome_compare x.toModel.unpack y.toModel.unpack
  rw [decide_eq_true_eq, beq_iff_eq] at hcompare
  rw [hcompare] at hnumbers
  show y.toModel.unpack.isNaN = false
  simp_all

end

/-! ## Rules -/

/-- The rules that settings have to keep. -/
inductive Rule where
  | source
  | distinct
  | path
  | port
  | timeout
  | interval
  | jitter
  | bounds
  | level
  | name
deriving DecidableEq

/-- A strategy that is to be bounded has one bound: a number of endpoints above zero, or a share
above zero and no greater than one. -/
def StrategySettings.Bounded : StrategySettings → Prop
  | all => True
  | bounded (some count) none => count ≠ 0
  | bounded none (some share) => 0.0 < share ∧ ¬ 1.0 < share
  | bounded _ _ => False

instance : DecidablePred StrategySettings.Bounded
  | .all => isTrue trivial
  | .bounded (some count) none => inferInstanceAs (Decidable (count ≠ 0))
  | .bounded none (some share) => inferInstanceAs (Decidable (0.0 < share ∧ ¬ 1.0 < share))
  | .bounded none none | .bounded (some _) (some _) => isFalse id

namespace Rule

/-- The rules in the order in which they are judged. -/
def inOrder : List Rule :=
  [source, distinct, path, port, timeout, interval, jitter, bounds, level, name]

/-- Every rule is judged. -/
theorem mem_inOrder (rule : Rule) : rule ∈ inOrder := by
  cases rule <;> decide

/-- What it means to keep a rule. -/
def Kept (s : Settings) : Rule → Prop
  | source => s.discovery.endpoints ≠ [] ↔ s.discovery.file = none
  | distinct => s.discovery.endpoints.Nodup
  | path => s.check.kind = .http → ∃ path ∈ s.check.path, ['/'] <+: path.toList
  | port => s.check.port ≠ some 0
  | timeout => s.check.timeout ≠ .zero
  | interval => s.check.retryInterval ≠ .zero
  | jitter => s.check.jitter.isNaN = false ∧ ¬ s.check.jitter < 0.0 ∧ ¬ 1.0 < s.check.jitter
  | bounds => s.check.strategy.Bounded
  | level => s.general.logLevel.toLower ∈ logLevels
  | name => s.general.name ≠ ""

instance (s : Settings) : DecidablePred (Kept s)
  | source => inferInstanceAs (Decidable (s.discovery.endpoints ≠ [] ↔ s.discovery.file = none))
  | distinct => inferInstanceAs (Decidable s.discovery.endpoints.Nodup)
  | path => inferInstanceAs
      (Decidable (s.check.kind = .http → ∃ path ∈ s.check.path, ['/'] <+: path.toList))
  | port => inferInstanceAs (Decidable (s.check.port ≠ some 0))
  | timeout => inferInstanceAs (Decidable (s.check.timeout ≠ .zero))
  | interval => inferInstanceAs (Decidable (s.check.retryInterval ≠ .zero))
  | jitter => inferInstanceAs (Decidable
      (s.check.jitter.isNaN = false ∧ ¬ s.check.jitter < 0.0 ∧ ¬ 1.0 < s.check.jitter))
  | bounds => inferInstanceAs (Decidable s.check.strategy.Bounded)
  | level => inferInstanceAs (Decidable (s.general.logLevel.toLower ∈ logLevels))
  | name => inferInstanceAs (Decidable (s.general.name ≠ ""))

/-- The endpoints at those places of a list that have the same endpoint at an earlier place. -/
def repetitions (endpoints : List Endpoint) : List Endpoint :=
  (endpoints.zipIdx.filter fun entry => entry.1 ∈ endpoints.take entry.2).map Prod.fst

/-- What is told of settings that do not keep a rule. -/
def breach (s : Settings) : Rule → List Problem
  | source => if s.discovery.file = none then [.noSource] else [.twoSources]
  | distinct => (repetitions s.discovery.endpoints).map .repeatedEndpoint
  | path => [s.check.path.elim .missingPath .relativePath]
  | port => [.zeroPort]
  | timeout => [.zeroTimeout]
  | interval => [.zeroInterval]
  | jitter => [.jitterRange s.check.jitter]
  | bounds =>
    match s.check.strategy with
    | .all => []
    | .bounded (some _) (some _) => [.twoBounds]
    | .bounded none none => [.noBound]
    | .bounded (some _) none => [.quota .zeroCount]
    | .bounded none (some share) => [.quota (.invalidRatio share)]
  | level => [.unknownLevel s.general.logLevel]
  | name => [.emptyName]

end Rule

/-- What is told of settings with regard to a rule. -/
def Settings.told (s : Settings) (rule : Rule) : List Problem :=
  if rule.Kept s then [] else rule.breach s

/-! ## Repetitions -/

/-- A pass that remembers what it has seen finds the places with something seen before the list or
at an earlier place. -/
theorem repeatedEndpoints_eq (seen endpoints : List Endpoint) :
    repeatedEndpoints seen endpoints =
      (endpoints.zipIdx.filter fun entry => entry.1 ∈ seen ++ endpoints.take entry.2).map
        Prod.fst := by
  induction endpoints generalizing seen with
  | nil => rfl
  | cons e rest ih =>
    -- The places of the rest count from one, and the first endpoint stands before all of them.
    have hrest : ((rest.zipIdx 1).filter
          fun entry => entry.1 ∈ seen ++ (e :: rest).take entry.2).map Prod.fst =
        repeatedEndpoints (e :: seen) rest := by
      rw [ih, List.zipIdx_succ, List.filter_map, List.map_map]
      refine congrArg (List.map Prod.fst) (List.filter_congr fun entry _ => ?_)
      simp [Bool.or_left_comm]
    rw [repeatedEndpoints, List.zipIdx_cons, List.filter_cons]
    by_cases hseen : e ∈ seen
    · have hsame : repeatedEndpoints (e :: seen) rest = repeatedEndpoints seen rest := by
        rw [ih, ih]
        refine congrArg (List.map Prod.fst) (List.filter_congr fun entry _ => ?_)
        have : entry.1 = e → entry.1 ∈ seen := fun h => h ▸ hseen
        simp only [List.cons_append, List.mem_cons, List.mem_append, decide_eq_decide]
        tauto
      simp [hseen, ← hsame, ← hrest]
    · simp [hseen, ← hrest]

/-- Of the occurrences of an endpoint all but the first are repetitions. -/
theorem count_repeatedEndpoints (seen endpoints : List Endpoint) (e : Endpoint) :
    (repeatedEndpoints seen endpoints).count e =
      if e ∈ seen then endpoints.count e else endpoints.count e - 1 := by
  induction endpoints generalizing seen with
  | nil => simp [repeatedEndpoints]
  | cons first rest ih =>
    unfold repeatedEndpoints
    by_cases hseen : first ∈ seen
    · rw [if_pos (by simpa using hseen), List.count_cons, ih, List.count_cons]
      by_cases he : first = e
      · subst he
        simp [hseen]
      · simp [he]
    · rw [if_neg (by simpa using hseen), ih, List.count_cons]
      by_cases he : first = e
      · subst he
        simp [hseen]
      · simp [he, Ne.symm he]

namespace Rule

/-- The repetitions of a list are what a pass over it finds that has seen nothing yet. -/
theorem repetitions_eq (endpoints : List Endpoint) :
    repetitions endpoints = repeatedEndpoints [] endpoints := by
  rw [repeatedEndpoints_eq]
  rfl

/-- An endpoint is repeated once less often than it is listed. -/
theorem count_repetitions (endpoints : List Endpoint) (e : Endpoint) :
    (repetitions endpoints).count e = endpoints.count e - 1 := by
  rw [repetitions_eq, count_repeatedEndpoints, if_neg List.not_mem_nil]

/-- Nothing is repeated just if each endpoint is listed once. -/
theorem repetitions_eq_nil_iff (endpoints : List Endpoint) :
    repetitions endpoints = [] ↔ endpoints.Nodup := by
  simp only [List.nodup_iff_count_le_one, List.eq_nil_iff_forall_not_mem, ← List.count_eq_zero,
    count_repetitions, Nat.sub_eq_zero_iff_le]

end Rule

/-! ## Problems by rules -/

/-- A share is taken as a bound if it is above zero and not above one. -/
theorem Quota.validShare_iff {share : Float} :
    validShare share = true ↔ 0.0 < share ∧ ¬ 1.0 < share := by
  have hone : (1.0 : Float).isNaN = false := rfl
  rw [validShare, Bool.and_eq_true, decide_eq_true_iff, decide_eq_true_iff, le_iff_not_lt]
  refine and_congr_right fun hpositive => ?_
  rw [and_iff_right (isNaN_eq_false_of_lt hpositive), and_iff_right hone]

namespace Settings

variable {s : Settings} {rule : Rule}

/-- Nothing is told with regard to a rule that is kept. -/
theorem told_of_kept (h : rule.Kept s) : s.told rule = [] :=
  if_pos h

/-- All there is to tell is told with regard to a rule that is not kept. -/
theorem told_of_broken (h : ¬ rule.Kept s) : s.told rule = rule.breach s :=
  if_neg h

/-- A rule with a single problem, which is there under a condition. -/
theorem ite_eq_told {p : Problem} {broken : Prop} [Decidable broken] (hp : rule.breach s = [p])
    (h : broken ↔ ¬ rule.Kept s) : (if broken then [p] else []) = s.told rule := by
  by_cases hkept : rule.Kept s
  · rw [told_of_kept hkept, if_neg (fun hbroken => h.mp hbroken hkept)]
  · rw [told_of_broken hkept, if_pos (h.mpr hkept), hp]

/-- The problems of discovery are told by the rules for the source and for repetitions. -/
theorem discovery_problems_eq : s.discovery.problems = s.told .source ++ s.told .distinct := by
  have hdistinct : (repeatedEndpoints [] s.discovery.endpoints).map .repeatedEndpoint =
      s.told .distinct := by
    rw [← Rule.repetitions_eq]
    by_cases hkept : Rule.distinct.Kept s
    · rw [told_of_kept hkept, (Rule.repetitions_eq_nil_iff _).mpr hkept, List.map_nil]
    · rw [told_of_broken hkept, Rule.breach]
  rw [DiscoverySettings.problems, hdistinct]
  refine congrArg (· ++ _) ?_
  cases hendpoints : s.discovery.endpoints <;> cases hfile : s.discovery.file <;>
    simp [told, Rule.Kept, Rule.breach, hendpoints, hfile]

/-- The problems of the path are told by the rule for it. -/
theorem pathProblems_eq : s.check.pathProblems = s.told .path := by
  rw [CheckSettings.pathProblems]
  cases hkind : s.check.kind with
  | tcp => simp [told, Rule.Kept, hkind]
  | http =>
    cases hpath : s.check.path with
    | none => simp [told, Rule.Kept, Rule.breach, hkind, hpath]
    | some path =>
      have hrooted : path.startsWith "/" = true ↔ ['/'] <+: path.toList :=
        String.startsWith_string_iff
      simp [told, Rule.Kept, Rule.breach, hkind, hpath, hrooted]

/-- The problems of a strategy are told by the rule for bounds. -/
theorem strategy_problems_eq : s.check.strategy.problems = s.told .bounds := by
  match hstrategy : s.check.strategy with
  | .all | .bounded none none | .bounded (some _) (some _) =>
    simp [told, Rule.Kept, Rule.breach, StrategySettings.problems, StrategySettings.Bounded,
      hstrategy]
  | .bounded (some count) none =>
    have hzero : count.toNat = 0 ↔ count = 0 := by
      rw [← UInt64.toNat_inj]
      rfl
    by_cases h : count = 0 <;>
      simp [told, Rule.Kept, Rule.breach, StrategySettings.problems, StrategySettings.Bounded,
        Problem.ofCheck, Quota.ofCount, hstrategy, hzero, h]
  | .bounded none (some share) =>
    by_cases h : 0.0 < share ∧ ¬ 1.0 < share <;>
      simp [told, Rule.Kept, Rule.breach, StrategySettings.problems, StrategySettings.Bounded,
        Problem.ofCheck, Quota.ofRatio, hstrategy, Quota.validShare_iff, h]

/-- A jitter passes the two comparisons just if it keeps its rule, which a jitter that is no number
does not. -/
theorem jitter_iff :
    (0.0 ≤ s.check.jitter && s.check.jitter ≤ 1.0) = true ↔ Rule.jitter.Kept s := by
  have hzero : (0.0 : Float).isNaN = false := rfl
  have hone : (1.0 : Float).isNaN = false := rfl
  rw [Bool.and_eq_true, decide_eq_true_iff, decide_eq_true_iff, le_iff_not_lt, le_iff_not_lt,
    Rule.Kept]
  tauto

/-- The problems of a check are told by its rules, in their order. -/
theorem check_problems_eq :
    s.check.problems =
      s.told .path ++ s.told .port ++ s.told .timeout ++ s.told .interval ++ s.told .jitter ++
        s.told .bounds := by
  have hport : (if s.check.port == some 0 then [Problem.zeroPort] else []) = s.told .port :=
    ite_eq_told rfl (by simp [Rule.Kept])
  have htimeout : (if s.check.timeout.isZero then [Problem.zeroTimeout] else []) =
      s.told .timeout :=
    ite_eq_told rfl (by simp [Rule.Kept, Duration.isZero_iff_eq_zero])
  have hinterval : (if s.check.retryInterval.isZero then [Problem.zeroInterval] else []) =
      s.told .interval :=
    ite_eq_told rfl (by simp [Rule.Kept, Duration.isZero_iff_eq_zero])
  have hjitter : (if 0.0 ≤ s.check.jitter && s.check.jitter ≤ 1.0 then []
      else [Problem.jitterRange s.check.jitter]) = s.told .jitter := by
    by_cases hkept : Rule.jitter.Kept s
    · rw [told_of_kept hkept, if_pos (jitter_iff.mpr hkept)]
    · rw [told_of_broken hkept, if_neg (mt jitter_iff.mp hkept), Rule.breach]
  rw [CheckSettings.problems, pathProblems_eq, hport, htimeout, hinterval, hjitter,
    strategy_problems_eq]

/-- The general problems are told by the rules for the level and the name. -/
theorem general_problems_eq : s.general.problems = s.told .level ++ s.told .name := by
  have hlevel : (if logLevels.contains s.general.logLevel.toLower then []
      else [Problem.unknownLevel s.general.logLevel]) = s.told .level := by
    by_cases hkept : Rule.level.Kept s
    · rw [told_of_kept hkept, if_pos (List.contains_iff_mem.mpr hkept)]
    · rw [told_of_broken hkept, if_neg (mt List.contains_iff_mem.mp hkept), Rule.breach]
  have hname : (if s.general.name.isEmpty then [Problem.emptyName] else []) = s.told .name :=
    ite_eq_told rfl (by simp [Rule.Kept])
  rw [GeneralSettings.problems, hlevel, hname]

/-- The problems of settings, rule by rule. -/
theorem problems_eq_told : s.problems = Rule.inOrder.flatMap s.told := by
  rw [problems, discovery_problems_eq, check_problems_eq, general_problems_eq]
  simp [Rule.inOrder]

/-! ## Main statement -/

/-- A rule that is not kept has something told, and but for repetitions it is a single problem. -/
theorem told_of_broken_cases (h : ¬ rule.Kept s) :
    s.told rule ≠ [] ∧ (rule ≠ .distinct → ∃ p, s.told rule = [p]) := by
  rw [told_of_broken h]
  cases rule with
  | source => by_cases hfile : s.discovery.file = none <;> simp [Rule.breach, hfile]
  | distinct =>
    have hrepeated : Rule.repetitions s.discovery.endpoints ≠ [] :=
      mt (Rule.repetitions_eq_nil_iff _).mp h
    simp [Rule.breach, hrepeated]
  | bounds =>
    match hstrategy : s.check.strategy with
    | .all =>
      refine absurd ?_ h
      rw [Rule.Kept, hstrategy]
      trivial
    | .bounded none none | .bounded (some _) (some _) | .bounded (some _) none
    | .bounded none (some _) => simp [Rule.breach, hstrategy]
  | _ => simp [Rule.breach]

/-- What is told with regard to a rule is among the problems. -/
theorem mem_problems_of_told {p : Problem} (h : p ∈ s.told rule) : p ∈ s.problems := by
  rw [problems_eq_told]
  exact List.mem_flatMap_of_mem rule.mem_inOrder h

/-- There is no problem just if every rule is kept. -/
theorem problems_eq_nil_iff : s.problems = [] ↔ ∀ rule : Rule, rule.Kept s := by
  rw [problems_eq_told, List.flatMap_eq_nil_iff]
  constructor
  · intro h rule
    by_contra hbroken
    exact (told_of_broken_cases hbroken).1 (h rule rule.mem_inOrder)
  · exact fun h rule _ => told_of_kept (h rule)

/-- Settings are valid just if they have no problem. -/
theorem validate_eq_ok_iff : s.validate = .ok () ↔ s.problems = [] := by
  unfold validate
  split <;> simp_all

/-- Settings with a problem are refused with the words for all their problems. -/
theorem validate_of_problem {p : Problem} (h : p ∈ s.problems) :
    s.validate = .error (Problem.summary s.problems) := by
  unfold validate
  split
  · simp_all
  · rfl

end Settings

/-- A text that is listed stands in the listing. -/
theorem exists_intercalate_eq (separator : String) {text : String} {texts : List String}
    (h : text ∈ texts) :
    ∃ before after, separator.intercalate texts = before ++ text ++ after := by
  induction texts with
  | nil => cases h
  | cons first rest ih =>
    by_cases hrest : rest = []
    · subst hrest
      obtain rfl := List.mem_singleton.mp h
      exact ⟨"", "", by simp⟩
    · rw [String.intercalate_cons_of_ne_nil hrest]
      rcases List.mem_cons.mp h with rfl | h
      · exact ⟨"", separator ++ separator.intercalate rest, by simp [String.append_assoc]⟩
      · obtain ⟨before, after, heq⟩ := ih h
        exact ⟨first ++ separator ++ before, after, by simp [heq, String.append_assoc]⟩

namespace Settings

/-- Settings are valid just if they keep every rule. Otherwise one text tells, rule by rule and in
the order of the rules, what each rule that is not kept gives rise to: a single problem, or one for
each endpoint that is listed again. All of it can be read in the text. -/
theorem validate_tells_every_breach (s : Settings) :
    (s.validate = .ok () ↔ ∀ rule : Rule, rule.Kept s) ∧
    ((∃ rule : Rule, ¬ rule.Kept s) → s.validate = .error
      ("; ".intercalate ((Rule.inOrder.flatMap s.told).map Problem.message))) ∧
    (∀ rule : Rule, ¬ rule.Kept s → rule ≠ .distinct → ∃ p, s.told rule = [p]) ∧
    (∀ e, (Rule.repetitions s.discovery.endpoints).count e = s.discovery.endpoints.count e - 1) ∧
    (∀ rule : Rule, ¬ rule.Kept s → s.told rule ≠ [] ∧ ∀ p ∈ s.told rule,
      ∃ before after, s.validate = .error (before ++ p.message ++ after)) := by
  refine ⟨validate_eq_ok_iff.trans problems_eq_nil_iff, fun ⟨rule, hbroken⟩ => ?_,
    fun rule hbroken => (told_of_broken_cases hbroken).2, Rule.count_repetitions _,
    fun rule hbroken => ⟨(told_of_broken_cases hbroken).1, fun p hp => ?_⟩⟩
  · obtain ⟨p, hp⟩ := List.exists_mem_of_ne_nil _ (told_of_broken_cases hbroken).1
    rw [validate_of_problem (mem_problems_of_told hp), problems_eq_told, Problem.summary]
  · have hlisted : p.message ∈ s.problems.map Problem.message :=
      List.mem_map.mpr ⟨p, mem_problems_of_told hp, rfl⟩
    obtain ⟨before, after, heq⟩ := exists_intercalate_eq "; " hlisted
    refine ⟨before, after, ?_⟩
    rw [validate_of_problem (mem_problems_of_told hp), Problem.summary, heq]

/-- Settings with a breach of every rule but those on bounds and the name, and with one endpoint
listed three times. -/
theorem breaches_of_eight_rules_are_told :
    let a : Endpoint := { host := "a", port := some 80 }
    let s : Settings :=
      { general := { logLevel := "loud" }
        check :=
          { kind := .http
            path := some "health"
            port := some 0
            timeout := .zero
            retryInterval := .zero
            jitter := 0.0 / 0.0 }
        discovery := { endpoints := [a, { host := "b" }, a, a], file := some "endpoints.yaml" } }
    ¬ Rule.jitter.Kept s ∧ s.validate = .error ("discovery endpoints and file are mutually " ++
      "exclusive; duplicate endpoint: a:80; duplicate endpoint: a:80; health check path " ++
      "'health' must start with '/'; health check port must be between 1 and 65535; health " ++
      "check timeout must be greater than 0; health check retry_interval must be greater than " ++
      "0; health check jitter must be between 0 and 1, got NaN; invalid log level 'loud', must " ++
      "be one of: trace, debug, info, warn, error") := by
  intro a s
  have hbroken : ¬ Rule.jitter.Kept s := by decide
  obtain ⟨-, htold, -⟩ := validate_tells_every_breach s
  refine ⟨hbroken, (htold ⟨.jitter, hbroken⟩).trans (congrArg Except.error ?_)⟩
  decide +kernel

end Settings

end HealthWatch
