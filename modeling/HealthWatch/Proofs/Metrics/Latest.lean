import HealthWatch.Metrics
import Mathlib.Data.List.Induction

/-!
# Metrics show the latest snapshots

Snapshots and publications are recorded for any groups in any order. A snapshot sets the gauges of
its endpoints one by one, an endpoint that it has twice included, and takes away those that are kept
as recorded for the group and are not in it. What is kept as recorded is right after any log, so the
gauges of a group are those of its latest snapshot and no others, and its counter is the number of
its publications (`metrics_show_the_latest_snapshots`).
-/

set_option autoImplicit false

namespace HealthWatch.Metrics

/-- Something that is recorded for a group. -/
inductive Act where
  | snapshot (group : String) (snapshot : HealthSnapshot)
  | publication (group : String)

namespace Act

/-- The group that an act is for. -/
def group : Act → String
  | snapshot group _ => group
  | publication group => group

/-- The snapshot that is recorded for a group, if one is. -/
def snapshotOf? (group : String) : Act → Option HealthSnapshot
  | snapshot other s => if other = group then some s else none
  | publication _ => none

/-- Is it a publication of the group? -/
def publishes (group : String) : Act → Bool
  | snapshot _ _ => false
  | publication other => other == group

end Act

/-- Records an act. -/
def perform (m : Metrics) : Act → Metrics
  | .snapshot group s => m.record group s
  | .publication group => m.publish group

/-- The metrics after everything in a log has been recorded. -/
def ofLog (log : List Act) : Metrics :=
  log.foldl perform {}

/-- The metrics of a log are recorded act by act. -/
theorem ofLog_concat (log : List Act) (act : Act) :
    ofLog (log ++ [act]) = (ofLog log).perform act := by
  simp [ofLog]

/-- The latest snapshot of a group in a log. -/
def latest? (log : List Act) (group : String) : Option HealthSnapshot :=
  log.reverse.findSome? (Act.snapshotOf? group)

/-- A further snapshot of a group is its latest, and any other act leaves the latest one. -/
theorem latest?_concat (log : List Act) (act : Act) (group : String) :
    latest? (log ++ [act]) group = (act.snapshotOf? group).or (latest? log group) := by
  rw [latest?, List.reverse_concat, List.findSome?_cons]
  cases act.snapshotOf? group <;> rfl

/-- The health that a list says last of an authority. -/
def lastHealth? (endpoints : List EndpointHealth) (authority : String) : Option Bool :=
  (endpoints.reverse.find? (fun e => e.endpoint.authority == authority)).map EndpointHealth.healthy

/-- What a list says last of an authority is said by its last entry, if that has the authority. -/
theorem lastHealth?_concat (endpoints : List EndpointHealth) (e : EndpointHealth)
    (authority : String) :
    lastHealth? (endpoints ++ [e]) authority =
      if e.endpoint.authority == authority then some e.healthy
      else lastHealth? endpoints authority := by
  rw [lastHealth?, List.reverse_concat, List.find?_cons]
  split <;> simp_all [lastHealth?]

/-- A list says nothing of an authority just if no entry of it has that. -/
theorem lastHealth?_eq_none_iff {endpoints : List EndpointHealth} {authority : String} :
    lastHealth? endpoints authority = none ↔
      authority ∉ endpoints.map (fun e => e.endpoint.authority) := by
  simp [lastHealth?]

/-- The count of a snapshot's endpoints in a state, as the word that a gauge holds. -/
def countOf (s : HealthSnapshot) : CountedState → Int64
  | .candidate => Int64.ofNat s.candidates
  | .healthy => Int64.ofNat s.healthy

/-! ## The gauges of a snapshot -/

/-- Setting the gauges of a group leaves one for each authority of the list, with what the list says
of it last, and all others as they were. -/
theorem valuesAt_setHealth (group : String) (health : Family (String × String) Int64)
    (endpoints : List EndpointHealth) (other authority : String) :
    (setHealth group health endpoints).valuesAt (other, authority) =
      if group = other ∧ (lastHealth? endpoints authority).isSome then
        ((lastHealth? endpoints authority).map healthValue).toList
      else health.valuesAt (other, authority) := by
  induction endpoints using List.reverseRecOn with
  | nil => simp [setHealth, lastHealth?]
  | append_singleton endpoints e ih =>
    have hlast : setHealth group health (endpoints ++ [e]) =
        (setHealth group health endpoints).set (group, e.endpoint.authority)
          (healthValue e.healthy) := by
      simp [setHealth]
    rw [hlast, Family.valuesAt_set, ih, lastHealth?_concat]
    by_cases hgroup : group = other
    · by_cases hauthority : e.endpoint.authority = authority <;> simp [hgroup, hauthority]
    · simp [hgroup]

/-- Taking gauges away concerns the given authorities of the group alone. -/
theorem valuesAt_removeHealth (group : String) (health : Family (String × String) Int64)
    (authorities : List String) (other authority : String) :
    (removeHealth group health authorities).valuesAt (other, authority) =
      if group = other ∧ authority ∈ authorities then []
      else health.valuesAt (other, authority) := by
  induction authorities generalizing health with
  | nil => simp [removeHealth]
  | cons first rest ih =>
    have hfirst : removeHealth group health (first :: rest) =
        removeHealth group (health.remove (group, first)) rest := rfl
    rw [hfirst, ih, Family.valuesAt_remove]
    by_cases hgroup : group = other
    · by_cases hauthority : first = authority
      · simp [hgroup, hauthority]
      · simp [hgroup, hauthority, Ne.symm hauthority]
    · simp [hgroup]

/-- What a recorded snapshot does to the gauge of an authority in its group: it is set if the
snapshot has the authority, and taken away if it does not and the authority was recorded before. -/
theorem valuesAt_health_record (m : Metrics) (group : String) (s : HealthSnapshot)
    (authority : String) :
    (m.record group s).health.valuesAt (group, authority) =
      match lastHealth? s.endpoints authority with
      | some healthy => [healthValue healthy]
      | none =>
        if authority ∈ (m.recorded.get? group).getD [] then []
        else m.health.valuesAt (group, authority) := by
  simp only [record, valuesAt_removeHealth, valuesAt_setHealth, true_and, List.mem_filter,
    Bool.not_eq_true', List.contains_eq_mem, decide_eq_false_iff_not]
  cases hlast : lastHealth? s.endpoints authority with
  | none =>
    have hmissing := lastHealth?_eq_none_iff.mp hlast
    simp only [hmissing, not_false_eq_true, and_true, Option.isSome_none, Bool.false_eq_true,
      if_false]
  | some healthy =>
    have hlisted : authority ∈ s.endpoints.map (fun e => e.endpoint.authority) := by
      by_contra hmissing
      rw [lastHealth?_eq_none_iff.mpr hmissing] at hlast
      cases hlast
    simp only [hlisted, not_true_eq_false, and_false, if_false, Option.isSome_some, if_true,
      Option.map_some, Option.toList_some]

/-- Metrics that have the same samples of a group. -/
structure SameFor (group : String) (m n : Metrics) : Prop where
  health : ∀ authority, m.health.valuesAt (group, authority) = n.health.valuesAt (group, authority)
  counts : ∀ state, m.counts.valuesAt (group, state) = n.counts.valuesAt (group, state)
  publications : m.publications.valuesAt group = n.publications.valuesAt group

/-- What is recorded for one group leaves every sample of another. -/
theorem sameFor_perform (m : Metrics) {act : Act} {group : String} (h : act.group ≠ group) :
    SameFor group (m.perform act) m := by
  cases act with
  | snapshot other s =>
    have hne : other ≠ group := h
    refine ⟨fun authority => ?_, fun state => ?_, rfl⟩
    · simp [perform, record, valuesAt_removeHealth, valuesAt_setHealth, hne]
    · simp [perform, record, Family.valuesAt_set, hne]
  | publication other =>
    have hne : other ≠ group := h
    refine ⟨fun _ => rfl, fun _ => rfl, ?_⟩
    simp [perform, publish, Family.update, Family.valuesAt_set, hne]

/-- What is kept as recorded for a group changes only with an act for that group. -/
theorem get?_recorded_perform (m : Metrics) {act : Act} {group : String} (h : act.group ≠ group) :
    (m.perform act).recorded.get? group = m.recorded.get? group := by
  cases act with
  | snapshot other s =>
    have hne : other ≠ group := h
    simp [perform, record, Family.get?_set, hne]
  | publication other => rfl

/-! ## A whole log -/

/-- An act for another group has no snapshot for this one. -/
theorem snapshotOf?_of_ne {act : Act} {group : String} (h : act.group ≠ group) :
    act.snapshotOf? group = none := by
  cases act with
  | snapshot other s => exact if_neg h
  | publication other => rfl

/-- What is kept as recorded for a group is what its latest snapshot has. -/
theorem get?_recorded_ofLog (log : List Act) (group : String) :
    (ofLog log).recorded.get? group =
      (latest? log group).map fun s => s.endpoints.map (fun e => e.endpoint.authority) := by
  induction log using List.reverseRecOn with
  | nil => rfl
  | append_singleton log act ih =>
    rw [ofLog_concat, latest?_concat]
    by_cases hgroup : act.group = group
    · subst hgroup
      cases act with
      | snapshot other s => simp [perform, record, Family.get?_set, Act.group, Act.snapshotOf?]
      | publication other => simpa [perform, publish, Act.snapshotOf?] using ih
    · rw [get?_recorded_perform _ hgroup, ih, snapshotOf?_of_ne hgroup, Option.none_or]

/-- The gauge of an authority in a group is what the latest snapshot of the group says of it last,
and there is none if that says nothing. -/
theorem valuesAt_health_ofLog (log : List Act) (group authority : String) :
    (ofLog log).health.valuesAt (group, authority) =
      ((latest? log group).bind fun s =>
        (lastHealth? s.endpoints authority).map healthValue).toList := by
  induction log using List.reverseRecOn with
  | nil => rfl
  | append_singleton log act ih =>
    rw [ofLog_concat, latest?_concat]
    by_cases hgroup : act.group = group
    · subst hgroup
      cases act with
      | snapshot other s =>
        have hrecorded := get?_recorded_ofLog log other
        simp only [perform, Act.group, valuesAt_health_record] at ih ⊢
        simp only [Act.snapshotOf?, if_pos, Option.some_or, Option.bind_some]
        cases hlast : lastHealth? s.endpoints authority with
        | some healthy => rfl
        | none =>
          -- an authority that the latest snapshot before lacked has no gauge to take away
          cases hlatest : latest? log other with
          | none => simp [hrecorded, ih, hlatest]
          | some earlier =>
            simp only [hrecorded, ih, hlatest, Option.map_some, Option.getD_some,
              Option.bind_some, Option.map_none, Option.toList_none, ite_eq_left_iff]
            intro hmissing
            rw [lastHealth?_eq_none_iff.mpr hmissing]
            rfl
      | publication other => simpa [perform, publish, Act.snapshotOf?] using ih
    · rw [(sameFor_perform _ hgroup).health, ih, snapshotOf?_of_ne hgroup, Option.none_or]

/-- The counts of a group are those of its latest snapshot. -/
theorem valuesAt_counts_ofLog (log : List Act) (group : String) (state : CountedState) :
    (ofLog log).counts.valuesAt (group, state) =
      ((latest? log group).map fun s => countOf s state).toList := by
  induction log using List.reverseRecOn with
  | nil => rfl
  | append_singleton log act ih =>
    rw [ofLog_concat, latest?_concat]
    by_cases hgroup : act.group = group
    · subst hgroup
      cases act with
      | snapshot other s =>
        cases state <;>
          simp [perform, record, Family.valuesAt_set, Act.group, Act.snapshotOf?, countOf]
      | publication other => simpa [perform, publish, Act.snapshotOf?] using ih
    · rw [(sameFor_perform _ hgroup).counts, ih, snapshotOf?_of_ne hgroup, Option.none_or]

/-- How often a log has the group's list published. -/
def publicationsIn (log : List Act) (group : String) : Nat :=
  log.countP (Act.publishes group)

/-- The counter of a group is the number of its publications, once there is one. -/
theorem valuesAt_publications_ofLog (log : List Act) (group : String) :
    (ofLog log).publications.valuesAt group =
      if publicationsIn log group = 0 then [] else [publicationsIn log group] := by
  induction log using List.reverseRecOn with
  | nil => rfl
  | append_singleton log act ih =>
    have hcount : publicationsIn (log ++ [act]) group =
        publicationsIn log group + if act.publishes group then 1 else 0 := by
      simp [publicationsIn, List.countP_append, List.countP_singleton]
    rw [ofLog_concat, hcount]
    cases act with
    | snapshot other s => simpa [perform, record, Act.publishes] using ih
    | publication other =>
      by_cases hgroup : other = group
      · subst hgroup
        simp only [perform, publish, Family.update, Family.valuesAt_set, Family.get?_eq_head?, ih,
          Act.publishes, beq_self_eq_true, if_true]
        split <;> simp_all
      · simpa [perform, publish, Family.update, Family.valuesAt_set, Act.publishes, hgroup] using ih

/-- Metrics that show of a group what a log says last of it: a gauge for each authority of its
latest snapshot, with the health that the snapshot says last of it, and for no other; the two counts
of that snapshot; and how often the group's list was published. -/
structure Shows (m : Metrics) (log : List Act) (group : String) : Prop where
  health : ∀ authority, m.health.valuesAt (group, authority) =
    ((latest? log group).bind fun s => (lastHealth? s.endpoints authority).map healthValue).toList
  counts : ∀ state, m.counts.valuesAt (group, state) =
    ((latest? log group).map fun s => countOf s state).toList
  publications : m.publications.valuesAt group =
    if publicationsIn log group = 0 then [] else [publicationsIn log group]

/-- After any log every group's samples are those of its latest snapshot and of its publications,
and what is recorded next for another group changes none of them. -/
theorem metrics_show_the_latest_snapshots (log : List Act) (group : String) :
    (ofLog log).Shows log group ∧
      ∀ act : Act, act.group ≠ group → SameFor group ((ofLog log).perform act) (ofLog log) :=
  ⟨⟨valuesAt_health_ofLog log group, valuesAt_counts_ofLog log group,
      valuesAt_publications_ofLog log group⟩,
    fun _ hgroup => sameFor_perform _ hgroup⟩

/-- An authority that a snapshot says twice is shown as it is said last, one that the next snapshot
lacks is taken away, and neither has to do with the other group's gauge of the same name. -/
theorem metrics_show_a_return_and_a_repetition :
    let a (healthy : Bool) : EndpointHealth := ⟨⟨"a", none⟩, none, healthy⟩
    let b (healthy : Bool) : EndpointHealth := ⟨⟨"b", some 80⟩, none, healthy⟩
    let log : List Act :=
      [.snapshot "east" ⟨2, 1, [a true, b true]⟩, .publication "east",
        .snapshot "west" ⟨1, 1, [a true]⟩, .snapshot "east" ⟨3, 1, [a true, a false]⟩]
    (ofLog log).health.valuesAt ("east", "a") = [0] ∧
      (ofLog log).health.valuesAt ("east", "b:80") = [] ∧
      (ofLog log).counts.valuesAt ("east", .candidate) = [3] ∧
      (ofLog log).publications.valuesAt "east" = [1] ∧
      ((ofLog log).perform (.snapshot "east" ⟨0, 0, []⟩)).health.valuesAt ("west", "a") = [1] := by
  intro a b log
  obtain ⟨heast, -⟩ := metrics_show_the_latest_snapshots log "east"
  obtain ⟨hwest, hother⟩ := metrics_show_the_latest_snapshots log "west"
  have hsame := hother (.snapshot "east" ⟨0, 0, []⟩) (by decide)
  refine ⟨?_, ?_, ?_, ?_, ?_⟩
  · rw [heast.health]; decide
  · rw [heast.health]; decide
  · rw [heast.counts]; rfl
  · rw [heast.publications]; rfl
  · rw [hsame.health, hwest.health]; decide

end HealthWatch.Metrics
