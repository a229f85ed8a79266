import HealthWatch.Proofs.Duration.Rereading
import HealthWatch.Settings.Reading
import HealthWatch.Settings.Writing

/-!
# Reading written settings again

Settings are written as records with every field, and read by setting one field after the other in
a draft, by ascending name (`record_eq_foldlM`). Each field is a text, a number, a list or a record
of its own, and comes back if what it holds does. What does not come back from every value is an
endpoint, of which the authority text is written, and a real number that is not finite, for which
nothing is written: the main statement says that there is nothing else.
-/

set_option autoImplicit false

namespace HealthWatch

open Decode

/-! ## Values -/

namespace Data

/-- The value is a record with these members, which are listed by ascending name. -/
def Lists (d : Data) (members : List (String × Data)) : Prop :=
  ∃ written, d = record written ∧ sortedMembers written = members

/-- Data with these members are read as members with a tag. -/
theorem tagged_of_lists {d : Data} {members : List (String × Data)} (h : d.Lists members)
    (type : String) :
    Legible.tagged d type = .ok (.members (members.map (fun m => (.text m.1, m.2)))) := by
  obtain ⟨written, rfl, rfl⟩ := h
  rfl

/-- A text that was written is read as it is. -/
theorem text_text (text expected : String) :
    Legible.text (Data.text text) expected = .ok text :=
  rfl

/-- A real number that was written is read again if it is finite; what is written for others is no
number. -/
theorem float_ofReal (x : Float) :
    Legible.float (ofReal x) =
      if x.isFinite then .ok x else Except.error (.invalidType .nothing "f64") := by
  unfold ofReal
  split <;> rfl

/-- A word that was written is read again where it fits. -/
theorem word_natCast {n : Nat} {width : Width} (h : n < width.bound) :
    Legible.word (whole n) width = .ok n := by
  have hfits : (n : Int) < width.bound := Int.ofNat_lt.mpr h
  simp [Legible.word, readWord, hfits]

end Data

namespace Decode

variable {α β : Type}

/-- Decoding goes on with what was decoded. -/
@[simp]
theorem ok_bind (a : α) (f : α → Decoded β) : (Except.ok a >>= f) = f a :=
  rfl

/-- An error ends the decoding. -/
@[simp]
theorem error_bind (e : DecodeError) (f : α → Decoded β) :
    ((Except.error e : Decoded α) >>= f) = .error e :=
  rfl

/-- Two readings one after the other come out just if each does. -/
theorem bind_eq_ok_iff {x : Decoded α} {f : α → Decoded β} {b : β} :
    (x >>= f) = .ok b ↔ ∃ a, x = .ok a ∧ f a = .ok b := by
  cases x with
  | error e => simp
  | ok a => simp

/-- A list comes back from decoding just if each of its entries does. -/
theorem mapM_eq_self_iff {f : α → Decoded α} {l : List α} :
    l.mapM f = .ok l ↔ ∀ a ∈ l, f a = .ok a := by
  induction l with
  | nil => simp [pure, Except.pure]
  | cons a rest ih =>
    rw [List.mapM_cons, List.forall_mem_cons, ← ih]
    constructor
    · intro h
      obtain ⟨b, hb, h⟩ := bind_eq_ok_iff.mp h
      obtain ⟨bs, hbs, h⟩ := bind_eq_ok_iff.mp h
      cases h
      exact ⟨hb, hbs⟩
    · rintro ⟨ha, hrest⟩
      rw [ha, ok_bind, hrest]
      rfl

/-- A duration comes back from its text. -/
theorem duration_text (d : Duration) : duration (Data.text d.text) = .ok d := by
  rw [duration, Data.text_text, ok_bind, d.parse_text]
  rfl

/-- What may be missing comes back, there or not, if what is there does. -/
theorem optional_ofOption {read : Data → Decoded α} {write : α → Data}
    (hthere : ∀ a, (write a).isNull = false) (hread : ∀ a, read (write a) = .ok a)
    (o : Option α) : optional read (Data.ofOption write o) = .ok o := by
  cases o with
  | none => rfl
  | some a =>
    have habsent : Legible.absent (write a) = .ok false := congrArg Except.ok (hthere a)
    rw [optional, Data.ofOption, habsent, ok_bind, hread]
    rfl

/-- A text that may be missing comes back, or is missing again. -/
theorem optional_text (expected : String) (o : Option String) :
    optional (fun v => Legible.text v expected) (Data.ofOption Data.text o) = .ok o := by
  apply optional_ofOption
  · exact fun _ => rfl
  · exact fun text => Data.text_text text expected

/-- Members that are fields, each one there once, are set one after the other. -/
theorem foldNamed_eq_foldlM {shape : Shape} {set : α → String → Data → Decoded α}
    {members : List (String × Data)} (hfields : ∀ name ∈ members.map Prod.fst, name ∈ shape.fields)
    (hnodup : (members.map Prod.fst).Nodup) {seen : List String}
    (hseen : ∀ name ∈ members.map Prod.fst, name ∉ seen)
    (hrequired : ∀ name ∈ shape.required, name ∈ seen ∨ name ∈ members.map Prod.fst)
    (draft : α) :
    foldNamed shape set draft seen members =
      members.foldlM (fun draft m => set draft m.1 m.2) draft := by
  induction members generalizing seen draft with
  | nil =>
    have hnone : shape.required.find? (fun name => !seen.contains name) = none := by
      rw [List.find?_eq_none]
      intro name hname
      have hmem : name ∈ seen := by simpa using hrequired name hname
      simp [hmem]
    rw [foldNamed, hnone]
    rfl
  | cons m rest ih =>
    obtain ⟨name, v⟩ := m
    rw [List.map_cons, List.forall_mem_cons] at hfields hseen
    rw [List.map_cons, List.nodup_cons] at hnodup
    rw [foldNamed, if_neg (by simpa using hfields.1), if_neg (by simpa using hseen.1),
      List.foldlM_cons]
    refine bind_congr fun draft => ih hfields.2 hnodup.2 ?_ ?_ draft
    · intro other hother
      rw [List.mem_cons, not_or]
      exact ⟨fun heq => hnodup.1 (heq ▸ hother), hseen.2 other hother⟩
    · intro other hother
      have hmem := hrequired other hother
      rw [List.map_cons, List.mem_cons] at hmem
      rw [List.mem_cons]
      rcases hmem with hmem | hmem | hmem
      · exact .inl (.inr hmem)
      · exact .inl (.inl hmem)
      · exact .inr hmem

/-- Data with just the members that a record may have, each at most once and the required ones among
them, are read into a draft one by one. -/
theorem record_eq_foldlM {shape : Shape} {set : α → String → Data → Decoded α} {d : Data}
    {members : List (String × Data)} (hd : d.Lists members)
    (hfields : ∀ name ∈ members.map Prod.fst, name ∈ shape.fields)
    (hnodup : (members.map Prod.fst).Nodup)
    (hrequired : ∀ name ∈ shape.required, name ∈ members.map Prod.fst) (draft : α) :
    record shape set draft d = members.foldlM (fun draft m => set draft m.1 m.2) draft := by
  obtain ⟨written, rfl, rfl⟩ := hd
  exact foldNamed_eq_foldlM hfields hnodup (fun _ _ => List.not_mem_nil)
    (fun name hname => .inr (hrequired name hname)) draft

end Decode

/-! ## Records -/

namespace GeneralSettings

/-- The members that general settings are written with. -/
theorem lists_toData (s : GeneralSettings) :
    s.toData.Lists
      [("log_format", .text s.logFormat.word),
        ("log_level", .text s.logLevel),
        ("name", .text s.name),
        ("report_interval", .text s.reportInterval.text)] :=
  ⟨_, rfl, by simp [Data.sortedMembers, List.mergeSort]⟩

/-- General settings come back as they were written. -/
theorem read_toData (s : GeneralSettings) : read s.toData = .ok s := by
  have hformat : chosen [.json, .pretty] LogFormat.word (Data.text s.logFormat.word) =
      .ok s.logFormat := by
    cases s.logFormat <;> rfl
  rw [read, record_eq_foldlM s.lists_toData (by simp) (by simp) (by simp)]
  simp only [List.foldlM_cons, List.foldlM_nil, set, ok_bind, Data.text_text, hformat,
    duration_text]
  rfl

end GeneralSettings

namespace StrategySettings

/-- What is left of a strategy that was written: a ratio that is no number is lost. -/
def written : StrategySettings → StrategySettings
  | all => all
  | bounded count share => bounded count (share.filter Float.isFinite)

/-- A number of endpoints comes back, or is missing again. -/
theorem readCount_ofOption (count : Option UInt64) :
    readCount (.ofOption (fun n => .whole n.toNat) count) = .ok count := by
  apply optional_ofOption
  · exact fun _ => rfl
  · intro n
    have hlong : Legible.word (Data.whole n.toNat) .long = .ok n.toNat :=
      Data.word_natCast n.toNat_lt
    rw [hlong]
    exact congrArg Except.ok UInt64.ofNat_toNat

/-- A share comes back if it is finite, and is missing otherwise. -/
theorem readRatio_ofOption (share : Option Float) :
    readRatio (.ofOption .ofReal share) = .ok (share.filter Float.isFinite) := by
  cases share with
  | none => rfl
  | some x =>
    rw [Data.ofOption, Data.ofReal, Option.filter_some]
    cases x.isFinite <;> rfl

/-- A strategy comes back but for a share that is no finite number. -/
theorem read_toData (s : StrategySettings) : read s.toData = .ok s.written := by
  cases s with
  | all =>
    have hlists : all.toData.Lists [("type", .text "all")] :=
      ⟨_, rfl, by simp [Data.sortedMembers]⟩
    rw [read, Data.tagged_of_lists hlists]
    rfl
  | bounded count share =>
    have hlists : (bounded count share).toData.Lists
        [("max_endpoint_count", .ofOption (fun n => .whole n.toNat) count),
          ("max_endpoint_ratio", .ofOption .ofReal share),
          ("type", .text "partial")] :=
      ⟨_, rfl, by simp [Data.sortedMembers, List.mergeSort]⟩
    have hsplit : splitMembers none []
        [(.text "max_endpoint_count", .ofOption (fun n => .whole n.toNat) count),
          (.text "max_endpoint_ratio", .ofOption .ofReal share),
          (.text "type", Data.text "partial")] =
        .ok (some "partial",
          [(.text "max_endpoint_count", .ofOption (fun n => .whole n.toNat) count),
            (.text "max_endpoint_ratio", .ofOption .ofReal share)]) := rfl
    have hbounds (c r : Data) : readBounds none none
        [(.text "max_endpoint_count", c), (.text "max_endpoint_ratio", r)] =
        (do .ok (bounded (← readCount c) (← readRatio r))) := rfl
    rw [read, Data.tagged_of_lists hlists]
    simp only [List.map_cons, List.map_nil, ok_bind, hsplit]
    change readBounds none none _ = _
    rw [hbounds, readCount_ofOption, readRatio_ofOption]
    rfl

/-- Nothing of a strategy is lost in writing just if its share, if it has one, is finite. -/
theorem written_eq_self_iff (s : StrategySettings) :
    s.written = s ↔ ∀ count share, s = bounded count (some share) → share.isFinite = true := by
  match s with
  | all => simp [written]
  | bounded count none => simp [written]
  | bounded count (some share) => simp [written, Option.filter_some]

end StrategySettings

namespace CheckSettings

/-- The members that the settings of a check are written with. -/
theorem lists_toData (s : CheckSettings) :
    s.toData.Lists
      [("expected_status", .whole s.expectedStatus.toNat),
        ("jitter", .ofReal s.jitter),
        ("path", .ofOption .text s.path),
        ("port", .ofOption (fun p => .whole p.toNat) s.port),
        ("protocol", .text s.scheme.word),
        ("retry_interval", .text s.retryInterval.text),
        ("strategy", s.strategy.toData),
        ("timeout", .text s.timeout.text),
        ("type", .text s.kind.word)] :=
  ⟨_, rfl, by simp [Data.sortedMembers, List.mergeSort]⟩

/-- All fields come back if the jitter is a number, the strategy as it was written. -/
theorem read_toData (s : CheckSettings) :
    read s.toData =
      if s.jitter.isFinite then .ok { s with strategy := s.strategy.written }
      else .error (.invalidType .nothing "f64") := by
  have hshort (n : UInt16) : Legible.word (Data.whole n.toNat) .short = .ok n.toNat :=
    Data.word_natCast n.toNat_lt
  have hport : Decode.optional (fun v => do .ok (UInt16.ofNat (← Legible.word v .short)))
      (Data.ofOption (fun p => Data.whole p.toNat) s.port) = .ok s.port := by
    apply optional_ofOption
    · exact fun _ => rfl
    · intro p
      rw [hshort]
      exact congrArg Except.ok UInt16.ofNat_toNat
  have hkind : chosen [.tcp, .http] CheckKind.word (Data.text s.kind.word) = .ok s.kind := by
    cases s.kind <;> rfl
  have hscheme : Decode.scheme (Data.text s.scheme.word) = .ok s.scheme := by
    cases s.scheme <;> rfl
  rw [read, record_eq_foldlM s.lists_toData (by simp) (by simp) (by simp)]
  simp only [List.foldlM_cons, List.foldlM_nil, set, bind_assoc, ok_bind, hshort,
    UInt16.ofNat_toNat, optional_text, hport, hkind, hscheme, duration_text,
    s.strategy.read_toData]
  rw [Data.float_ofReal]
  split
  · rfl
  · rfl

/-- The settings of a check come back just if the jitter and the share are finite. -/
theorem read_toData_eq_self_iff (s : CheckSettings) :
    read s.toData = .ok s ↔
      s.jitter.isFinite = true ∧
        ∀ count share, s.strategy = .bounded count (some share) → share.isFinite = true := by
  rw [read_toData, ← StrategySettings.written_eq_self_iff]
  split
  · rename_i hfinite
    constructor
    · intro h
      exact ⟨hfinite, congrArg strategy (Except.ok.inj h)⟩
    · rintro ⟨-, hwritten⟩
      rw [hwritten]
  · rename_i hfinite
    simp [hfinite]

end CheckSettings

namespace DiscoverySettings

/-- The members that the settings of discovery are written with. -/
theorem lists_toData (s : DiscoverySettings) :
    s.toData.Lists
      [("endpoints", .list (s.endpoints.map (fun e => .text e.authority))),
        ("file", .ofOption .text s.file)] :=
  ⟨_, rfl, by simp [Data.sortedMembers, List.mergeSort]⟩

/-- The endpoints come back if each does from its authority text. -/
theorem read_toData (s : DiscoverySettings) :
    read s.toData =
      (do
        let endpoints ← s.endpoints.mapM (fun e => endpoint (Data.text e.authority))
        .ok { s with endpoints := endpoints }) := by
  have hlist : Decode.list endpoint (Data.list (s.endpoints.map (fun e => .text e.authority))) =
      s.endpoints.mapM (fun e => endpoint (Data.text e.authority)) :=
    List.mapM_map
  rw [read, record_eq_foldlM s.lists_toData (by simp) (by simp) (by simp)]
  simp only [List.foldlM_cons, List.foldlM_nil, set, bind_assoc, ok_bind, hlist, optional_text]
  rfl

/-- The settings of discovery come back just if each endpoint does from its authority text. -/
theorem read_toData_eq_self_iff (s : DiscoverySettings) :
    read s.toData = .ok s ↔ ∀ e ∈ s.endpoints, Endpoint.parse e.authority = .ok e := by
  have hendpoint (e : Endpoint) :
      endpoint (Data.text e.authority) = .ok e ↔ Endpoint.parse e.authority = .ok e := by
    change (Endpoint.parse e.authority).mapError _ = _ ↔ _
    cases Endpoint.parse e.authority with
    | error error => simp [Except.mapError]
    | ok parsed => simp [Except.mapError]
  simp only [← hendpoint]
  rw [read_toData, ← mapM_eq_self_iff]
  constructor
  · intro h
    obtain ⟨endpoints, hendpoints, h⟩ := bind_eq_ok_iff.mp h
    have hsame : endpoints = s.endpoints :=
      congrArg DiscoverySettings.endpoints (Except.ok.inj h)
    rw [hendpoints, hsame]
  · intro h
    rw [h]
    rfl

end DiscoverySettings

/-! ## Main statement -/

namespace Settings

/-- The members that settings are written with. -/
theorem lists_toData (s : Settings) :
    s.toData.Lists
      [("discovery", s.discovery.toData),
        ("global", s.general.toData),
        ("health_check", s.check.toData)] :=
  ⟨_, rfl, by simp [Data.sortedMembers, List.mergeSort]⟩

/-- Settings come back part by part, the general ones always. -/
theorem read_toData (s : Settings) :
    read s.toData =
      (do
        let discovery ← DiscoverySettings.read s.discovery.toData
        let check ← CheckSettings.read s.check.toData
        .ok { s with discovery := discovery, check := check }) := by
  rw [read, record_eq_foldlM s.lists_toData (by simp) (by simp) (by simp)]
  simp only [List.foldlM_cons, List.foldlM_nil, set, bind_assoc, ok_bind,
    s.general.read_toData]
  rfl

/-- Settings that are written come back just if each endpoint comes back from its authority text,
and the jitter and the ratio are numbers. -/
theorem read_written_iff (s : Settings) :
    read s.toData = .ok s ↔
      (∀ e ∈ s.discovery.endpoints, Endpoint.parse e.authority = .ok e) ∧
        s.check.jitter.isFinite = true ∧
        ∀ count share, s.check.strategy = .bounded count (some share) → share.isFinite = true := by
  rw [← s.discovery.read_toData_eq_self_iff, ← s.check.read_toData_eq_self_iff, read_toData]
  constructor
  · intro h
    obtain ⟨discovery, hdiscovery, h⟩ := bind_eq_ok_iff.mp h
    obtain ⟨check, hcheck, h⟩ := bind_eq_ok_iff.mp h
    obtain ⟨rfl, rfl⟩ : discovery = s.discovery ∧ check = s.check := by
      have heq := Except.ok.inj h
      exact ⟨congrArg Settings.discovery heq, congrArg Settings.check heq⟩
    exact ⟨hdiscovery, hcheck⟩
  · rintro ⟨hdiscovery, hcheck⟩
    rw [hdiscovery, ok_bind, hcheck]
    rfl

end Settings

end HealthWatch
