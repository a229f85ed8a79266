import HealthWatch.Duration.Text
import Mathlib

/-!
# Reading the text of a duration again

A duration is written as a sum of numbers with units, and reading adds the numbers up. Both sides
are compared by their nanoseconds: the parts of a text spell a number of them (`Spells`), the parts
of a duration spell its own (`spells_parts`), and what is read is the duration of the number that
is spelled (`Spells.run`). So every duration comes back from its text (`parse_text`).
-/

set_option autoImplicit false

namespace HealthWatch.Duration

/-! ## Nanoseconds -/

/-- The length of a duration in nanoseconds. -/
def inNanos (d : Duration) : Nat :=
  1000000000 * d.seconds.toNat + d.nanos.val

/-- The nanoseconds of a duration stay below those of one second more than a word can count. -/
theorem inNanos_lt (d : Duration) : d.inNanos < 1000000000 * 2 ^ 64 := by
  have hseconds := d.seconds.toNat_lt
  have hnanos := d.nanos.isLt
  unfold inNanos
  omega

/-- A duration is known by its nanoseconds. -/
theorem inNanos_inj {d e : Duration} (h : d.inNanos = e.inNanos) : d = e := by
  obtain ⟨seconds, nanos⟩ := d
  obtain ⟨seconds', nanos'⟩ := e
  have hnanos := nanos.isLt
  have hnanos' := nanos'.isLt
  simp only [inNanos] at h
  rw [mk.injEq, ← UInt64.toNat_inj, ← Fin.val_inj]
  omega

/-- The nanoseconds of parts that are put together, of which full seconds are carried over. -/
theorem inNanos_mk {seconds nanos : Nat} (h : seconds + nanos / 1000000000 < 2 ^ 64) :
    inNanos
      { seconds := UInt64.ofNat (seconds + nanos / 1000000000)
        nanos := ⟨nanos % 1000000000, Nat.mod_lt _ (by decide)⟩ } =
      1000000000 * seconds + nanos := by
  have hseconds := UInt64.toNat_ofNat_of_lt' h
  simp only [inNanos, hseconds]
  omega

/-- Parts with the nanoseconds of a duration make that duration. -/
theorem ofParts?_eq {seconds nanos : Nat} {d : Duration}
    (h : 1000000000 * seconds + nanos = d.inNanos) : ofParts? seconds nanos = some d := by
  have hlt := d.inNanos_lt
  have hwhole : seconds + nanos / 1000000000 < 2 ^ 64 := by omega
  unfold ofParts?
  dsimp only
  rw [if_pos (show _ < UInt64.size from hwhole), Option.some_inj]
  exact inNanos_inj ((inNanos_mk hwhole).trans h)

/-- Each number of nanoseconds within the range is that of a duration. -/
theorem exists_inNanos_eq {nanos : Nat} (h : nanos < 1000000000 * 2 ^ 64) :
    ∃ d : Duration, d.inNanos = nanos := by
  have hwhole : 0 + nanos / 1000000000 < 2 ^ 64 := by omega
  refine ⟨_, (inNanos_mk hwhole).trans ?_⟩
  omega

/-! ## Sums -/

/-- A number of 64 bits fits a word. -/
theorem word_eq {n : Nat} (h : n < 2 ^ 64) : word n = .ok n :=
  if_pos h

/-- A sum that a duration can hold is reached, whether its nanoseconds make a second or not. -/
theorem plus_eq {sum total : Duration} {seconds nanos : Nat} (hnanos : nanos < 1000000000)
    (h : sum.inNanos + 1000000000 * seconds + nanos = total.inNanos) :
    plus sum seconds nanos = .ok total := by
  have hlt := total.inNanos_lt
  have hrest := sum.nanos.isLt
  have hsum : sum.inNanos = 1000000000 * sum.seconds.toNat + sum.nanos.val := rfl
  have hfine : word (sum.nanos.val + nanos) = .ok (sum.nanos.val + nanos) := word_eq (by omega)
  have hreached (carried fine : Nat)
      (hboth : 1000000000 * carried + fine = sum.nanos.val + nanos) :
      word (seconds + carried) = .ok (seconds + carried) ∧
        word (sum.seconds.toNat + (seconds + carried)) =
          .ok (sum.seconds.toNat + (seconds + carried)) ∧
        ofParts? (sum.seconds.toNat + (seconds + carried)) fine = some total := by
    refine ⟨word_eq ?_, word_eq ?_, ofParts?_eq ?_⟩ <;> omega
  -- a full second is carried over at once, or only when the parts are put together
  by_cases hcarry : 1000000000 < sum.nanos.val + nanos
  · obtain ⟨hadded, hwhole, hparts⟩ := hreached _ _ (Nat.div_add_mod _ 1000000000)
    simp only [plus, hfine, bind, Except.bind, if_pos hcarry, hadded, hwhole, hparts]
  · obtain ⟨hadded, hwhole, hparts⟩ := hreached 0 (sum.nanos.val + nanos) (by omega)
    simp only [plus, hfine, bind, Except.bind, if_neg hcarry, hadded, hwhole, hparts]

/-! ## Units -/

namespace Unit

/-- The length of a unit in nanoseconds. -/
def inNanos (unit : Unit) : Nat :=
  unit.nanos?.getD (1000000000 * unit.seconds)

variable {unit : Unit} {name : String}

/-- No name is that of two units. -/
theorem ofName?_of_mem (h : name ∈ unit.names) : ofName? name = some unit := by
  have hall : ∀ unit, ∀ name ∈ names unit, ofName? name = some unit := by
    intro unit
    cases unit <;> decide +kernel
  exact hall unit name h

/-- The names of units are made of letters that the reader takes for such. -/
theorem isUnitChar_of_mem (h : name ∈ unit.names) {c : Char} (hc : c ∈ name.toList) :
    isUnitChar c = true := by
  have hall : ∀ unit, (names unit).all (fun name => name.toList.all isUnitChar) = true := by
    intro unit
    cases unit <;> decide
  exact List.all_eq_true.mp (List.all_eq_true.mp (hall unit) name h) c hc

/-- No unit has an empty name. -/
theorem ne_nil_of_mem (h : name ∈ unit.names) : name.toList ≠ [] := by
  have hall : ∀ unit, ∀ name ∈ names unit, name.toList ≠ [] := by
    intro unit
    cases unit <;> decide +kernel
  exact hall unit name h

end Unit

/-- A number of units is added to a sum. Of a unit below a second there must be less than one
second, as a text has them. -/
theorem addUnits_eq {sum total : Duration} {unit : Unit} {name : String} {value : Nat}
    (hname : name ∈ unit.names)
    (hfine : unit.nanos? ≠ none → value * unit.inNanos < 1000000000)
    (h : sum.inNanos + value * unit.inNanos = total.inNanos) :
    addUnits sum value none name = .ok total := by
  have hlt := total.inNanos_lt
  unfold addUnits
  rw [Unit.ofName?_of_mem hname]
  dsimp only
  unfold Unit.inNanos at hfine h
  cases hlength : unit.nanos? with
  | none =>
    rw [hlength, Option.getD_none, Nat.mul_left_comm] at h
    have hword : word (value * unit.seconds) = .ok (value * unit.seconds) := word_eq (by omega)
    have hplus : plus sum (value * unit.seconds) 0 = .ok total :=
      plus_eq (by omega) (by omega)
    simp only [hword, hplus, bind, Except.bind]
  | some length =>
    rw [hlength, Option.getD_some] at h
    have hless : value * length < 1000000000 := by
      simpa [hlength] using hfine
    have hword : word (value * length) = .ok (value * length) := word_eq (by omega)
    have hplus : plus sum 0 (value * length) = .ok total := plus_eq hless (by omega)
    simp only [hword, hplus, bind, Except.bind]

/-! ## Numbers and names -/

/-- A letter is no digit and no blank. -/
theorem plain_of_isUnitChar {c : Char} (h : isUnitChar c = true) :
    c.isDigit = false ∧ Text.isBlank c = false := by
  unfold isUnitChar at h
  rcases Bool.or_eq_true_iff.mp h with hletter | hmicro
  · simp [Char.isAlpha, Char.isUpper, Char.isLower, Char.isDigit, Text.isBlank,
      UInt32.le_iff_toNat_le] at *
    omega
  · rw [eq_of_beq hmicro]
    decide

namespace Reading

variable {sum : Duration} {value : Nat} {rest : List Char} {result : Except DurationError Duration}

/-- Digits are read into a number, wherever they stand. -/
theorem run_digits {digits : List Char} (hdigits : ∀ c ∈ digits, c.isDigit = true)
    (hfits : Nat.ofDigitChars 10 digits value < 2 ^ 64)
    (hrest : ∀ place,
      (number sum (Nat.ofDigitChars 10 digits value)).run rest place = result) (place : Nat) :
    (number sum value).run (digits ++ rest) place = result := by
  induction digits generalizing value place with
  | nil => exact hrest place
  | cons c digits ih =>
    have hc := hdigits c List.mem_cons_self
    rw [Nat.ofDigitChars_cons] at hfits
    -- the number only grows with the digits to come
    have hgrows : 10 * value + digitValue c ≤
        Nat.ofDigitChars 10 digits (10 * value + digitValue c) := by
      rw [Nat.ofDigitChars_eq_ofDigitChars_zero]
      have hpos : 0 < 10 ^ digits.length := Nat.pow_pos (by decide)
      have hle := Nat.le_mul_of_pos_left (10 * value + digitValue c) hpos
      omega
    have hvalue : 10 * value + digitValue c < 2 ^ 64 := Nat.lt_of_le_of_lt hgrows hfits
    rw [List.cons_append, run, step, if_pos hc, word_eq hvalue]
    exact ih (fun d hd => hdigits d (List.mem_cons_of_mem c hd)) hfits hrest _

/-- A number is read from its digits. -/
theorem run_toDigits {sum : Option Duration} {since n : Nat} (hn : n < 2 ^ 64)
    (hrest : ∀ place, (number (sum.getD zero) n).run rest place = result) (place : Nat) :
    (seeking sum since).run (Nat.toDigits 10 n ++ rest) place = result := by
  have hdigits : ∀ c ∈ Nat.toDigits 10 n, c.isDigit = true := fun c hc =>
    Nat.isDigit_of_mem_toDigits (by decide) (by decide) hc
  have hvalue : Nat.ofDigitChars 10 (Nat.toDigits 10 n) 0 = n := Nat.ofDigitChars_ten_toDigits
  cases hcs : Nat.toDigits 10 n with
  | nil => exact absurd hcs Nat.toDigits_ne_nil
  | cons c digits =>
    rw [hcs] at hdigits hvalue
    rw [Nat.ofDigitChars_cons, Nat.mul_zero, Nat.zero_add] at hvalue
    have hc := hdigits c List.mem_cons_self
    rw [List.cons_append, run, step, if_pos hc]
    refine run_digits (fun d hd => hdigits d (List.mem_cons_of_mem c hd)) ?_ ?_ _
    · rw [digitValue, hvalue]
      exact hn
    · rw [digitValue, hvalue]
      exact hrest

/-- The letters of a unit are read into its name. -/
theorem run_letters {letters name : List Char} (hletters : ∀ c ∈ letters, isUnitChar c = true)
    (hrest : ∀ place, (unit sum value none (letters.reverse ++ name)).run rest place = result)
    (place : Nat) :
    (unit sum value none name).run (letters ++ rest) place = result := by
  induction letters generalizing name place with
  | nil => exact hrest place
  | cons c letters ih =>
    have hc := hletters c List.mem_cons_self
    obtain ⟨hdigit, hblank⟩ := plain_of_isUnitChar hc
    rw [List.reverse_cons, List.append_assoc] at hrest
    rw [List.cons_append, run, step, if_neg (by simp [hdigit]), if_neg (by simp [hblank]),
      if_pos hc]
    exact ih (fun d hd => hletters d (List.mem_cons_of_mem c hd)) hrest _

/-- The name of a unit is read behind a number. -/
theorem run_name {u : Unit} {name : String} (hname : name ∈ u.names)
    (hrest : ∀ place, (unit sum value none name.toList.reverse).run rest place = result)
    (place : Nat) :
    (number sum value).run (name.toList ++ rest) place = result := by
  have hletters : ∀ c ∈ name.toList, isUnitChar c = true := fun c hc =>
    Unit.isUnitChar_of_mem hname hc
  cases hcs : name.toList with
  | nil => exact absurd hcs (Unit.ne_nil_of_mem hname)
  | cons c letters =>
    rw [hcs] at hletters hrest
    have hc := hletters c List.mem_cons_self
    obtain ⟨hdigit, hblank⟩ := plain_of_isUnitChar hc
    rw [List.reverse_cons] at hrest
    rw [List.cons_append, run, step, if_neg (by simp [hdigit]), if_neg (by simp [hblank]),
      if_pos hc]
    exact run_letters (fun d hd => hletters d (List.mem_cons_of_mem c hd)) hrest _

/-- A number is read with its unit. -/
theorem run_part {sum : Option Duration} {since : Nat} {u : Unit} {name : String}
    (hname : name ∈ u.names) (hvalue : value < 2 ^ 64)
    (hrest : ∀ place,
      (unit (sum.getD zero) value none name.toList.reverse).run rest place = result)
    (place : Nat) :
    (seeking sum since).run ((toString value ++ name).toList ++ rest) place = result := by
  rw [String.toList_append, Nat.toString_eq_ofList_toDigits, String.toList_ofList,
    List.append_assoc]
  exact run_toDigits hvalue (run_name hname hrest) place

end Reading

/-! ## Parts -/

/-- A text's parts spell a number of nanoseconds: each is a number with the name of a unit, and
below a second a part comes to less than one. -/
inductive Spells : List String → Nat → Prop
  | nil : Spells [] 0
  | cons {unit : Unit} {name : String} {value : Nat} {parts : List String} {nanos : Nat}
      (hname : name ∈ unit.names) (hvalue : value < 2 ^ 64)
      (hfine : unit.nanos? ≠ none → value * unit.inNanos < 1000000000)
      (hrest : Spells parts nanos) :
      Spells ((toString value ++ name) :: parts) (value * unit.inNanos + nanos)

/-- Reading parts adds what they spell to the sum so far. -/
theorem Spells.run {parts : List String} {nanos : Nat} (h : Spells parts nanos)
    (hsome : parts ≠ []) {sum : Option Duration} {total : Duration}
    (htotal : (sum.getD zero).inNanos + nanos = total.inNanos) (since place : Nat) :
    (Reading.seeking sum since).run (" ".intercalate parts).toList place = .ok total := by
  induction h generalizing sum since place with
  | nil => exact absurd rfl hsome
  | @cons unit name value parts nanos hname hvalue hfine hrest ih =>
    rw [← Nat.add_assoc] at htotal
    have hlt := total.inNanos_lt
    obtain ⟨mid, hmid⟩ := exists_inNanos_eq
      (by omega : (sum.getD zero).inNanos + value * unit.inNanos < 1000000000 * 2 ^ 64)
    have hread : addUnits (sum.getD zero) value none
        (String.ofList name.toList.reverse.reverse) = .ok mid := by
      rw [List.reverse_reverse, String.ofList_toList]
      exact addUnits_eq hname hfine hmid.symm
    cases parts with
    | nil =>
      cases hrest
      have hmid : mid = total := inNanos_inj (by omega)
      rw [String.intercalate_singleton, ← List.append_nil (toString value ++ name).toList]
      refine Reading.run_part hname hvalue (fun place => ?_) place
      rw [Reading.run, Reading.finish, hread, hmid]
    | cons part parts =>
      have hrun (since place : Nat) : (Reading.seeking (some mid) since).run
          (" ".intercalate (part :: parts)).toList place = .ok total :=
        ih (List.cons_ne_nil part parts) (by rwa [Option.getD_some, hmid]) since place
      rw [String.intercalate_cons_cons, String.append_assoc, String.toList_append]
      refine Reading.run_part hname hvalue (fun place => ?_) place
      rw [String.toList_append, show " ".toList = [' '] from rfl, List.singleton_append,
        Reading.run, Reading.step, if_neg (by decide), if_pos (by decide), hread]
      exact hrun _ _

/-! ## Writing -/

/-- A part of zero units is left out. -/
theorem spells_part {unit : Unit} {name : String} {value : Nat} {parts : List String} {nanos : Nat}
    (hname : name ∈ unit.names) (hvalue : value < 2 ^ 64)
    (hfine : unit.nanos? ≠ none → value * unit.inNanos < 1000000000)
    (hrest : Spells parts nanos) :
    Spells (part value name ++ parts) (value * unit.inNanos + nanos) := by
  unfold part
  split
  · rename_i hzero
    simpa [hzero] using hrest
  · exact .cons hname hvalue hfine hrest

/-- A number of units that is written out, in the plural if need be, adds its nanoseconds to those
of the parts behind it. -/
theorem spells_pluralPart {unit : Unit} {name : String} {value : Nat} {parts : List String}
    {nanos : Nat} (hname : name ∈ unit.names) (hplural : name ++ "s" ∈ unit.names)
    (hvalue : value < 2 ^ 64) (hfine : unit.nanos? ≠ none → value * unit.inNanos < 1000000000)
    (hrest : Spells parts nanos) :
    Spells (pluralPart value name ++ parts) (value * unit.inNanos + nanos) := by
  unfold pluralPart
  split
  · rename_i hzero
    simpa [hzero] using hrest
  · split
    · rename_i hone
      have hdigit : "1" = toString (1 : Nat) := by decide
      rw [hone] at hvalue hfine ⊢
      rw [hdigit]
      exact .cons hname hvalue hfine hrest
    · rw [String.append_assoc]
      exact .cons hplural hvalue hfine hrest

/-- The parts of a duration spell its length. -/
theorem spells_parts (d : Duration) : Spells d.parts d.inNanos := by
  have hseconds := d.seconds.toNat_lt
  have hnanos := d.nanos.isLt
  have hlong {unit : Unit} {value : Nat} (h : unit.nanos? = none) :
      unit.nanos? ≠ none → value * unit.inNanos < 1000000000 :=
    fun hne => absurd h hne
  have hshort {unit : Unit} {value : Nat} (length : Nat) (hlength : unit.inNanos = length)
      (h : value * length < 1000000000) :
      unit.nanos? ≠ none → value * unit.inNanos < 1000000000 :=
    fun _ => hlength ▸ h
  have hlength : d.inNanos =
      d.seconds.toNat / 31557600 * Unit.year.inNanos +
      (d.seconds.toNat % 31557600 / 2630016 * Unit.month.inNanos +
      (d.seconds.toNat % 31557600 % 2630016 / 86400 * Unit.day.inNanos +
      (d.seconds.toNat % 31557600 % 2630016 % 86400 / 3600 * Unit.hour.inNanos +
      (d.seconds.toNat % 31557600 % 2630016 % 86400 % 3600 / 60 * Unit.minute.inNanos +
      (d.seconds.toNat % 31557600 % 2630016 % 86400 % 60 * Unit.second.inNanos +
      (d.nanos.val / 1000000 * Unit.millisecond.inNanos +
      (d.nanos.val / 1000 % 1000 * Unit.microsecond.inNanos +
      (d.nanos.val % 1000 * Unit.nanosecond.inNanos + 0)))))))) := by
    simp only [inNanos, Unit.inNanos, Unit.nanos?, Unit.seconds, Option.getD_some,
      Option.getD_none]
    omega
  rw [hlength, ← List.append_nil d.parts]
  simp only [parts, List.append_assoc]
  apply spells_pluralPart (by decide) (by decide) (by omega) (hlong rfl)
  apply spells_pluralPart (by decide) (by decide) (by omega) (hlong rfl)
  apply spells_pluralPart (by decide) (by decide) (by omega) (hlong rfl)
  apply spells_part (by decide) (by omega) (hlong rfl)
  apply spells_part (by decide) (by omega) (hlong rfl)
  apply spells_part (by decide) (by omega) (hlong rfl)
  apply spells_part (by decide) (by omega) (hshort 1000000 rfl (by omega))
  apply spells_part (by decide) (by omega) (hshort 1000 rfl (by omega))
  apply spells_part (by decide) (by omega) (hshort 1 rfl (by omega))
  exact .nil

/-! ## Main statement -/

/-- A duration is no time at all just if it has no nanoseconds. -/
theorem isZero_iff (d : Duration) : d.isZero = true ↔ d.inNanos = 0 := by
  rw [isZero, Bool.and_eq_true, beq_iff_eq, beq_iff_eq, ← UInt64.toNat_inj, inNanos,
    UInt64.toNat_zero]
  omega

/-- Every duration comes back from its text. -/
theorem parse_text (d : Duration) : parse d.text = .ok d := by
  have hspells := d.spells_parts
  unfold text
  cases hzero : d.isZero with
  | true =>
    have hd : d = zero := inNanos_inj (d.isZero_iff.mp hzero)
    subst hd
    rfl
  | false =>
    have hsome : d.parts ≠ [] := by
      intro hnil
      rw [hnil] at hspells
      generalize hlength : d.inNanos = nanos at hspells
      cases hspells
      rw [d.isZero_iff.mpr hlength] at hzero
      cases hzero
    have hrun : (Reading.seeking none 0).run (" ".intercalate d.parts).toList 0 = .ok d :=
      hspells.run hsome (Nat.zero_add _) 0 0
    -- a lone zero would lack its unit
    have hunit : " ".intercalate d.parts ≠ "0" := by
      intro hlone
      rw [hlone] at hrun
      cases hrun
    rw [if_neg (by decide), parse, if_neg hunit, hrun]

end HealthWatch.Duration
