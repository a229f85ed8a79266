import HealthWatch.Endpoint.Authority
import Mathlib

/-!
# The grammar of authorities

What stands for an endpoint, said without the reader: a host in brackets, with or without a port
behind it, a bare host without a colon, with or without a port, or a text of two colons or more,
which is a host as a whole (`Spells`). A text is read exactly if it is one of these, and as the
endpoint that it spells.

The other texts are refused for one of three reasons: a bracket is left open (`Unclosed`), nothing
stands where the host should (`Hostless`), or neither, and then it is the port that is not right.
Every text falls under one of the four (`ofTrimmed_outcomes`), and for the first three it is shown
what the reader makes of it; so none can be mistaken for another.
-/

set_option autoImplicit false

namespace HealthWatch.Endpoint

open Text

/-! ## The grammar -/

/-- Decimal digits, one at least, with the value of a port. -/
def DigitsOf (digits : List Char) (port : UInt16) : Prop :=
  digits ≠ [] ∧ (∀ c ∈ digits, c.isDigit = true) ∧ Nat.ofDigitChars 10 digits 0 = port.toNat

/-- What stands for a port: its digits, perhaps with a plus sign before them. -/
def SpellsPort (cs : List Char) (port : UInt16) : Prop :=
  ∃ digits, (cs = digits ∨ cs = '+' :: digits) ∧ DigitsOf digits port

/-- What stands for an endpoint, when there are no blanks around it. -/
inductive Spells : List Char → Endpoint → Prop where
  /-- A host in brackets. -/
  | bracketed {host : List Char} (hsome : host ≠ []) (hplain : ']' ∉ host) :
      Spells ('[' :: (host ++ [']'])) ⟨String.ofList host, none⟩
  /-- A host in brackets and a port. -/
  | bracketedPort {host digits : List Char} {port : UInt16} (hsome : host ≠ [])
      (hplain : ']' ∉ host) (hport : SpellsPort digits port) :
      Spells ('[' :: (host ++ ']' :: ':' :: digits)) ⟨String.ofList host, some port⟩
  /-- A bare host. -/
  | bare {host : List Char} (hsome : host ≠ []) (hplain : ':' ∉ host)
      (hbare : host.head? ≠ some '[') : Spells host ⟨String.ofList host, none⟩
  /-- A bare host and a port, with the only colon between them. -/
  | barePort {host digits : List Char} {port : UInt16} (hsome : host ≠ []) (hplain : ':' ∉ host)
      (hbare : host.head? ≠ some '[') (hport : SpellsPort digits port) :
      Spells (host ++ ':' :: digits) ⟨String.ofList host, some port⟩
  /-- A host with colons of its own, and no port. -/
  | address {host : List Char} (hcolons : 2 ≤ host.count ':') (hbare : host.head? ≠ some '[') :
      Spells host ⟨String.ofList host, none⟩

/-- The text begins with a bracket that nothing closes. -/
def Unclosed (cs : List Char) : Prop :=
  cs.head? = some '[' ∧ ']' ∉ cs

/-- Nothing stands where the host should: in the text, in its brackets, or before its only colon. -/
def Hostless (cs : List Char) : Prop :=
  cs = [] ∨ (∃ tail, cs = '[' :: ']' :: tail) ∨ ∃ tail, cs = ':' :: tail ∧ ':' ∉ tail

/-! ## Ports -/

/-- A text is read as the digits of a port just if it consists of them. -/
theorem readDigits_eq_some_iff {digits : List Char} {port : UInt16} :
    (if !digits.isEmpty && digits.all Char.isDigit && digitsValue digits < 65536 then
      some (UInt16.ofNat (digitsValue digits)) else none) = some port ↔ DigitsOf digits port := by
  have hvalue : digitsValue digits = Nat.ofDigitChars 10 digits 0 := rfl
  have hrange : port.toNat < 65536 := port.toNat_lt
  simp only [hvalue, DigitsOf]
  split
  · rename_i hok
    simp only [Bool.and_eq_true, Bool.not_eq_true', List.isEmpty_eq_false_iff, List.all_eq_true,
      decide_eq_true_eq] at hok
    obtain ⟨⟨hsome, hall⟩, hlt⟩ := hok
    rw [Option.some.injEq, ← UInt16.toNat_inj, UInt16.toNat_ofNat_of_lt' hlt]
    exact ⟨fun h => ⟨hsome, hall, h⟩, fun h => h.2.2⟩
  · rename_i hbad
    constructor
    · intro h
      cases h
    · rintro ⟨hsome, hall, hport⟩
      apply absurd _ hbad
      simp only [Bool.and_eq_true, Bool.not_eq_true', List.isEmpty_eq_false_iff, List.all_eq_true,
        decide_eq_true_eq]
      exact ⟨⟨hsome, hall⟩, by omega⟩

/-- A text is read as a port just if it spells that port. -/
theorem readPort?_eq_some_iff {cs : List Char} {port : UInt16} :
    readPort? cs = some port ↔ SpellsPort cs port := by
  unfold readPort?
  split
  · rename_i rest
    rw [readDigits_eq_some_iff]
    constructor
    · intro h
      exact ⟨rest, Or.inr rfl, h⟩
    · rintro ⟨digits, rfl | hcs, h⟩
      · -- the sign is no digit
        have hplus := h.2.1 '+' (by simp)
        simp at hplus
      · cases hcs
        exact h
  · rename_i hsign
    rw [readDigits_eq_some_iff]
    constructor
    · intro h
      exact ⟨cs, Or.inl rfl, h⟩
    · rintro ⟨digits, rfl | rfl, h⟩
      · exact h
      · exact absurd rfl (hsign digits)

/-- There is no colon in a port. -/
theorem SpellsPort.notMem_colon {cs : List Char} {port : UInt16} (h : SpellsPort cs port) :
    ':' ∉ cs := by
  obtain ⟨digits, hcs, -, hdigits, -⟩ := h
  have hcolon : ':' ∉ digits := by
    intro hin
    simpa using hdigits ':' hin
  rcases hcs with rfl | rfl
  · exact hcolon
  · simpa using hcolon

/-- A plain host and a port have one colon, the one between them. -/
theorem count_colon_of_port {host digits : List Char} {port : UInt16} (hplain : ':' ∉ host)
    (hport : SpellsPort digits port) : (host ++ ':' :: digits).count ':' = 1 := by
  rw [List.count_append, List.count_eq_zero.mpr hplain, List.count_cons_self,
    List.count_eq_zero.mpr hport.notMem_colon]

/-- A text with two colons is not empty. -/
theorem ne_nil_of_colons {cs : List Char} (h : 2 ≤ cs.count ':') : cs ≠ [] := by
  rintro rfl
  simp at h

/-! ## Cuts -/

/-- A text is cut at the first mark in it. -/
theorem cutAt?_append {mark : Char} {front : List Char} (h : mark ∉ front) (rest : List Char) :
    cutAt? mark (front ++ mark :: rest) = some (front, rest) := by
  have hfront : ∀ c ∈ front, (c != mark) = true := by
    intro c hc
    have hne : c ≠ mark := by
      rintro rfl
      exact h hc
    simpa using hne
  simp [cutAt?, List.dropWhile_append_of_pos hfront, List.takeWhile_append_of_pos hfront]

/-- The parts of a text that was cut make up the text, and the mark is not in the first one. -/
theorem eq_append_of_cutAt? {mark : Char} {cs front rest : List Char}
    (h : cutAt? mark cs = some (front, rest)) : mark ∉ front ∧ cs = front ++ mark :: rest := by
  unfold cutAt? at h
  split at h
  · cases h
  · rename_i c tail hdrop
    cases h
    have hmark : c = mark := by
      have hstop := List.head_dropWhile_not (· != mark) (l := cs) (by simp [hdrop])
      simpa [hdrop] using hstop
    subst hmark
    refine ⟨fun hin => ?_, ?_⟩
    · simpa using List.mem_takeWhile_imp hin
    · rw [← hdrop, List.takeWhile_append_dropWhile]

/-- A text that cannot be cut at a mark does not have it. -/
theorem notMem_of_cutAt?_eq_none {mark : Char} {cs : List Char} (h : cutAt? mark cs = none) :
    mark ∉ cs := by
  unfold cutAt? at h
  split at h
  · rename_i hdrop
    intro hin
    simpa using List.dropWhile_eq_nil_iff.mp hdrop mark hin
  · cases h

/-- A text is without the mark, or it can be cut at the first one. -/
theorem cutAt?_cases (mark : Char) (cs : List Char) :
    (mark ∉ cs ∧ cutAt? mark cs = none) ∨
      ∃ front rest, mark ∉ front ∧ cs = front ++ mark :: rest := by
  cases hcut : cutAt? mark cs with
  | none => exact Or.inl ⟨notMem_of_cutAt?_eq_none hcut, rfl⟩
  | some parts => exact Or.inr ⟨parts.1, parts.2, eq_append_of_cutAt? hcut⟩

/-! ## What the reader makes of each -/

/-- A text that spells an endpoint is read as that endpoint. -/
theorem ofTrimmed_of_spells {cs : List Char} {e : Endpoint} (h : Spells cs e) :
    ofTrimmed cs = .ok e := by
  cases h with
  | @bracketed host hsome hplain =>
    obtain ⟨c, rest, rfl⟩ := List.exists_cons_of_ne_nil hsome
    have hcut := cutAt?_append hplain []
    simp only [ofTrimmed, hcut]
  | @bracketedPort host digits port hsome hplain hport =>
    obtain ⟨c, rest, rfl⟩ := List.exists_cons_of_ne_nil hsome
    have hcut := cutAt?_append hplain (':' :: digits)
    simp only [ofTrimmed, hcut, readPort?_eq_some_iff.mpr hport]
  | bare hsome hplain hbare =>
    obtain ⟨c, rest, rfl⟩ := List.exists_cons_of_ne_nil hsome
    have hc : c ≠ '[' := by simpa using hbare
    have hcount : (c :: rest).count ':' = 0 := List.count_eq_zero.mpr hplain
    simp [ofTrimmed, hc, hcount]
  | @barePort host digits port hsome hplain hbare hport =>
    obtain ⟨c, rest, rfl⟩ := List.exists_cons_of_ne_nil hsome
    have hc : c ≠ '[' := by simpa using hbare
    have hcount := count_colon_of_port hplain hport
    have hcut := cutAt?_append hplain digits
    rw [List.cons_append] at hcount hcut ⊢
    simp [ofTrimmed, hc, hcount, hcut, readPort?_eq_some_iff.mpr hport]
  | address hcolons hbare =>
    obtain ⟨c, rest, rfl⟩ := List.exists_cons_of_ne_nil (ne_nil_of_colons hcolons)
    have hc : c ≠ '[' := by simpa using hbare
    have hcount : (c :: rest).count ':' ≠ 1 := by omega
    simp [ofTrimmed, hc]

/-- A text whose bracket nothing closes is refused for that. -/
theorem ofTrimmed_of_unclosed {cs : List Char} (h : Unclosed cs) :
    ofTrimmed cs = .error (.unterminated (String.ofList cs)) := by
  obtain ⟨hhead, hopen⟩ := h
  obtain ⟨rest, rfl⟩ := List.head?_eq_some_iff.mp hhead
  rcases cutAt?_cases ']' rest with ⟨-, hcut⟩ | ⟨front, tail, -, rfl⟩
  · simp only [ofTrimmed, hcut]
  · simp at hopen

/-- A text without a host is refused for that. -/
theorem ofTrimmed_of_hostless {cs : List Char} (h : Hostless cs) :
    ofTrimmed cs = .error .empty := by
  rcases h with rfl | ⟨tail, rfl⟩ | ⟨tail, rfl, hplain⟩
  · rfl
  · rfl
  · have hcount : (':' :: tail).count ':' = 1 := by
      rw [List.count_cons_self, List.count_eq_zero.mpr hplain]
    have hcut : cutAt? ':' (':' :: tail) = some ([], tail) := by simp [cutAt?]
    simp [ofTrimmed, hcount, hcut]

/-- With a bracket at its front, a text spells an endpoint, or the bracket is left open or empty, or
the port is not right. -/
theorem outcomes_of_bracket (rest : List Char) :
    (∃ e, Spells ('[' :: rest) e) ∨ Unclosed ('[' :: rest) ∨ Hostless ('[' :: rest) ∨
      ofTrimmed ('[' :: rest) = .error (.invalidPort (String.ofList ('[' :: rest))) := by
  rcases cutAt?_cases ']' rest with ⟨hopen, -⟩ | ⟨host, tail, hplain, rfl⟩
  · exact Or.inr (Or.inl ⟨rfl, by simpa using hopen⟩)
  have hcut := cutAt?_append hplain tail
  by_cases hsome : host = []
  · subst hsome
    exact Or.inr (Or.inr (Or.inl (Or.inr (Or.inl ⟨tail, rfl⟩))))
  obtain ⟨c, others, rfl⟩ := List.exists_cons_of_ne_nil hsome
  rw [List.cons_append] at hcut ⊢
  match tail with
  | [] => exact Or.inl ⟨_, .bracketed hsome hplain⟩
  | d :: digits =>
    by_cases hd : d = ':'
    · subst hd
      cases hport : readPort? digits with
      | some port =>
        exact Or.inl ⟨_, .bracketedPort hsome hplain (readPort?_eq_some_iff.mp hport)⟩
      | none =>
        right; right; right
        simp only [ofTrimmed, hcut, hport]
    · right; right; right
      simp [ofTrimmed, hcut, hd]

/-- Without a bracket at its front, a text spells an endpoint, or there is no host, or the port is
not right. -/
theorem outcomes_of_bare {cs : List Char} (hbare : cs.head? ≠ some '[') :
    (∃ e, Spells cs e) ∨ Hostless cs ∨
      ofTrimmed cs = .error (.invalidPort (String.ofList cs)) := by
  by_cases hsome : cs = []
  · exact Or.inr (Or.inl (Or.inl hsome))
  by_cases hcolons : 2 ≤ cs.count ':'
  · exact Or.inl ⟨_, .address hcolons hbare⟩
  rcases cutAt?_cases ':' cs with ⟨hplain, -⟩ | ⟨host, port, hplain, rfl⟩
  · exact Or.inl ⟨_, .bare hsome hplain hbare⟩
  have hcount : (host ++ ':' :: port).count ':' = 1 := by
    rw [List.count_append, List.count_cons_self] at hcolons ⊢
    omega
  match host with
  | [] =>
    refine Or.inr (Or.inl (Or.inr (Or.inr ⟨port, rfl, List.count_eq_zero.mp ?_⟩)))
    simpa using hcount
  | c :: rest =>
    have hc : c ≠ '[' := by simpa using hbare
    cases hport : readPort? port with
    | some p =>
      exact Or.inl ⟨_, .barePort (by simp) hplain (by simpa using hc)
        (readPort?_eq_some_iff.mp hport)⟩
    | none =>
      have hcut := cutAt?_append hplain port
      right; right
      rw [List.cons_append] at hcount hcut ⊢
      simp [ofTrimmed, hc, hcount, hcut, hport]

/-- Every text spells an endpoint or is refused for one of three reasons. -/
theorem ofTrimmed_outcomes (cs : List Char) :
    (∃ e, Spells cs e) ∨ Unclosed cs ∨ Hostless cs ∨
      ofTrimmed cs = .error (.invalidPort (String.ofList cs)) := by
  by_cases hbracket : cs.head? = some '['
  · obtain ⟨rest, rfl⟩ := List.head?_eq_some_iff.mp hbracket
    exact outcomes_of_bracket rest
  · rcases outcomes_of_bare hbracket with hspells | hrest
    · exact Or.inl hspells
    · exact Or.inr (Or.inr hrest)

/-! ## Results and what brings them about -/

/-- The results that the grammar gives for a text. -/
inductive Outcome (cs : List Char) : Except AuthorityError Endpoint → Prop where
  | spelled {e : Endpoint} (h : Spells cs e) : Outcome cs (.ok e)
  | unclosed (h : Unclosed cs) : Outcome cs (.error (.unterminated (String.ofList cs)))
  | hostless (h : Hostless cs) : Outcome cs (.error .empty)
  /-- What is wrong is neither the bracket nor the host, so it is the port. -/
  | portless (hspells : ∀ e, ¬Spells cs e) (hopen : ¬Unclosed cs) (hhost : ¬Hostless cs) :
      Outcome cs (.error (.invalidPort (String.ofList cs)))

/-- The result of the reader is one that the grammar gives. -/
theorem outcome_ofTrimmed (cs : List Char) : Outcome cs (ofTrimmed cs) := by
  rcases ofTrimmed_outcomes cs with ⟨e, hspells⟩ | hopen | hhost | hport
  · rw [ofTrimmed_of_spells hspells]
    exact .spelled hspells
  · rw [ofTrimmed_of_unclosed hopen]
    exact .unclosed hopen
  · rw [ofTrimmed_of_hostless hhost]
    exact .hostless hhost
  · rw [hport]
    -- any other shape of the text would have been read otherwise
    apply Outcome.portless
    · intro e hspells
      rw [ofTrimmed_of_spells hspells] at hport
      cases hport
    · intro hopen
      rw [ofTrimmed_of_unclosed hopen] at hport
      cases hport
    · intro hhost
      rw [ofTrimmed_of_hostless hhost] at hport
      cases hport

/-- The grammar gives one result for each text, and it is that of the reader. -/
theorem ofTrimmed_eq_iff {cs : List Char} {result : Except AuthorityError Endpoint} :
    ofTrimmed cs = result ↔ Outcome cs result := by
  constructor
  · rintro rfl
    exact outcome_ofTrimmed cs
  · intro h
    cases h with
    | spelled hspells => exact ofTrimmed_of_spells hspells
    | unclosed hopen => exact ofTrimmed_of_unclosed hopen
    | hostless hhost => exact ofTrimmed_of_hostless hhost
    | portless hspells hopen hhost =>
      rcases ofTrimmed_outcomes cs with ⟨e, he⟩ | hunclosed | hhostless | hport
      · exact absurd he (hspells e)
      · exact absurd hunclosed hopen
      · exact absurd hhostless hhost
      · exact hport

/-- A text is read as an endpoint just if it spells it. -/
theorem ofTrimmed_eq_ok_iff {cs : List Char} {e : Endpoint} :
    ofTrimmed cs = .ok e ↔ Spells cs e := by
  rw [ofTrimmed_eq_iff]
  constructor
  · intro h
    cases h with
    | spelled hspells => exact hspells
  · exact .spelled

/-! ## Main statement -/

/-- A text is read, without the blanks around it, as the endpoint that it spells. If it spells none,
it is refused because a bracket is left open, because there is no host, or, in all other cases,
because of its port. What is shown of the text in a refusal is all of it but the blanks. -/
theorem reads_what_the_text_spells (text : String) :
    let cs := trimBlanks text.toList
    (∀ e, parse text = .ok e ↔ Spells cs e) ∧
      (∀ shown, parse text = .error (.unterminated shown) ↔
        Unclosed cs ∧ shown = String.ofList cs) ∧
      (parse text = .error .empty ↔ Hostless cs) ∧
      ∀ shown, parse text = .error (.invalidPort shown) ↔
        ((∀ e, ¬Spells cs e) ∧ ¬Unclosed cs ∧ ¬Hostless cs) ∧ shown = String.ofList cs := by
  intro cs
  refine ⟨fun e => ofTrimmed_eq_ok_iff, fun shown => ?_, ?_, fun shown => ?_⟩
  · rw [parse, ofTrimmed_eq_iff]
    constructor
    · intro h
      cases h with
      | unclosed hopen => exact ⟨hopen, rfl⟩
    · rintro ⟨hopen, rfl⟩
      exact .unclosed hopen
  · rw [parse, ofTrimmed_eq_iff]
    constructor
    · intro h
      cases h with
      | hostless hhost => exact hhost
    · exact .hostless
  · rw [parse, ofTrimmed_eq_iff]
    constructor
    · intro h
      cases h with
      | portless hspells hopen hhost => exact ⟨⟨hspells, hopen, hhost⟩, rfl⟩
    · rintro ⟨⟨hspells, hopen, hhost⟩, rfl⟩
      exact .portless hspells hopen hhost

end HealthWatch.Endpoint
