import HealthWatch.Proofs.Endpoint.Identity

/-!
# Reading an authority text again

An endpoint is shown by its authority text, and that text can be read. What comes back is the same
endpoint exactly if the text shows where the host begins and ends (`Rereadable`): a host with a
colon stands in brackets, so it must not hold a closing one, and a host without a colon stands bare,
so it must not begin with a bracket nor have blanks at an end of the text.

What a text is read as goes by one of three shapes (`ofTrimmed_cases`). Not in every case is it an
endpoint whose own text can be read; the main statement says for which texts it is.
-/

set_option autoImplicit false

namespace HealthWatch

namespace Text

/-! ## Blanks at the ends -/

/-- Nothing is cut from the front of a text just if it does not begin with a blank. -/
theorem dropBlanks_eq_self_iff {cs : List Char} :
    dropBlanks cs = cs ↔ ∀ c ∈ cs.head?, isBlank c = false := by
  cases cs with
  | nil => simp [dropBlanks]
  | cons c cs =>
    cases hc : isBlank c with
    | false => simp [dropBlanks, hc]
    | true =>
      -- what is left of the rest is shorter than the whole
      have hshort : (cs.dropWhile isBlank).length ≤ cs.length := List.length_dropWhile_le _ _
      have hne : cs.dropWhile isBlank ≠ c :: cs := by
        intro h
        simp [h] at hshort
      simp [dropBlanks, hc, hne]

/-- Nothing is cut from the end of a text just if it does not end in a blank. -/
theorem dropBlanksEnd_eq_self_iff {cs : List Char} :
    dropBlanksEnd cs = cs ↔ ∀ c ∈ cs.getLast?, isBlank c = false := by
  rw [dropBlanksEnd, List.reverse_eq_iff, dropBlanks_eq_self_iff, List.head?_reverse]

/-- Cutting blanks from the front makes no text longer. -/
theorem length_dropBlanks_le (cs : List Char) : (dropBlanks cs).length ≤ cs.length :=
  List.length_dropWhile_le _ _

/-- Cutting blanks from the end makes no text longer. -/
theorem length_dropBlanksEnd_le (cs : List Char) : (dropBlanksEnd cs).length ≤ cs.length := by
  have h := length_dropBlanks_le cs.reverse
  simpa [dropBlanksEnd] using h

/-- A text is its own trimmed form just if there is no blank at either end. -/
theorem trimBlanks_eq_self_iff {cs : List Char} :
    trimBlanks cs = cs ↔
      (∀ c ∈ cs.head?, isBlank c = false) ∧ ∀ c ∈ cs.getLast?, isBlank c = false := by
  rw [← dropBlanks_eq_self_iff, ← dropBlanksEnd_eq_self_iff]
  constructor
  · intro h
    -- neither cut can shorten the text
    have hfront := length_dropBlanks_le cs
    have hback := length_dropBlanksEnd_le (dropBlanks cs)
    have hlength : (dropBlanksEnd (dropBlanks cs)).length = cs.length := congrArg List.length h
    have hkept : dropBlanks cs = cs := by
      apply (List.dropWhile_suffix isBlank).eq_of_length
      rw [← dropBlanks]
      omega
    exact ⟨hkept, by rw [trimBlanks, hkept] at h; exact h⟩
  · rintro ⟨hfront, hback⟩
    rw [trimBlanks, hfront, hback]

/-- Blanks go from the front only of a text with a nonblank inside and one at its end. -/
theorem trimBlanks_append {front rest : List Char} (hhead : ∃ c ∈ rest.head?, isBlank c = false)
    (hlast : ∀ c ∈ rest.getLast?, isBlank c = false) :
    trimBlanks (front ++ rest) = dropBlanks front ++ rest := by
  obtain ⟨c, hc, hsolid⟩ := hhead
  obtain ⟨tail, rfl⟩ := List.head?_eq_some_iff.mp hc
  have hdrop : dropBlanks (front ++ c :: tail) = dropBlanks front ++ c :: tail := by
    induction front with
    | nil => simp [dropBlanks, hsolid]
    | cons d front ih =>
      cases hd : isBlank d with
      | false => simp [dropBlanks, hd]
      | true => simpa [dropBlanks, hd] using ih
  rw [trimBlanks, hdrop, dropBlanksEnd_eq_self_iff]
  intro d hd
  apply hlast d
  simpa [List.getLast?_append] using hd

/-- A trimmed text has nothing left to trim. -/
theorem trimBlanks_trimBlanks (cs : List Char) : trimBlanks (trimBlanks cs) = trimBlanks cs := by
  have hsolid (ds : List Char) : ∀ c ∈ (dropBlanks ds).head?, isBlank c = false := by
    intro c hc
    have hstop := List.head?_dropWhile_not isBlank ds
    rw [← dropBlanks, Option.mem_def.mp hc] at hstop
    exact hstop
  rw [trimBlanks_eq_self_iff]
  constructor
  · intro c hc
    have hprefix : trimBlanks cs <+: dropBlanks cs := by
      rw [trimBlanks, dropBlanksEnd, ← List.reverse_suffix, List.reverse_reverse]
      exact List.dropWhile_suffix isBlank
    apply hsolid cs c
    obtain ⟨tail, htail⟩ := List.head?_eq_some_iff.mp hc
    obtain ⟨rest, hrest⟩ := hprefix
    rw [← hrest, htail]
    simp
  · intro c hc
    apply hsolid (dropBlanks cs).reverse c
    simpa [trimBlanks, dropBlanksEnd] using hc

end Text

namespace Endpoint

open Text

/-! ## The shapes of an authority -/

/-- The digits of a port spell it. -/
theorem spellsPort_toDigits (port : UInt16) : SpellsPort (Nat.toDigits 10 port.toNat) port := by
  refine ⟨_, Or.inl rfl, by simp, fun c hc => isDigit_toDigits hc, ?_⟩
  exact Nat.ofDigitChars_toDigits (by decide) (by decide)

/-- A host in brackets that holds no closing one can be read. -/
theorem ofTrimmed_bracketed {host : List Char} (hsome : host ≠ []) (hplain : ']' ∉ host)
    (port : Option UInt16) :
    ofTrimmed ('[' :: (host ++ ']' :: portChars port)) = .ok ⟨String.ofList host, port⟩ := by
  apply ofTrimmed_of_spells
  cases port with
  | none => exact .bracketed hsome hplain
  | some port => exact .bracketedPort hsome hplain (spellsPort_toDigits port)

/-- A bare host without a colon can be read, if it does not begin like one in brackets. -/
theorem ofTrimmed_bare {host : List Char} (hsome : host ≠ []) (hplain : ':' ∉ host)
    (hbare : host.head? ≠ some '[') (port : Option UInt16) :
    ofTrimmed (host ++ portChars port) = .ok ⟨String.ofList host, port⟩ := by
  apply ofTrimmed_of_spells
  cases port with
  | none =>
    rw [portChars, List.append_nil]
    exact .bare hsome hplain hbare
  | some port => exact .barePort hsome hplain hbare (spellsPort_toDigits port)

/-- What is read is a host in brackets, a host before the only colon, or the text as a whole. -/
theorem ofTrimmed_cases {cs : List Char} {e : Endpoint} (h : ofTrimmed cs = .ok e) :
    e.host.toList ≠ [] ∧
      ((∃ tail, cs = '[' :: (e.host.toList ++ ']' :: tail) ∧ ']' ∉ e.host.toList) ∨
        (cs.head? ≠ some '[' ∧ cs.count ':' = 1 ∧ e.port ≠ none ∧ ':' ∉ e.host.toList ∧
          ∃ tail, cs = e.host.toList ++ ':' :: tail) ∨
        (cs.head? ≠ some '[' ∧ cs.count ':' ≠ 1 ∧ e = ⟨String.ofList cs, none⟩)) := by
  cases ofTrimmed_eq_ok_iff.mp h with
  | bracketed hsome hplain =>
    refine ⟨by simpa using hsome, Or.inl ⟨[], ?_⟩⟩
    simpa using hplain
  | @bracketedPort host digits port hsome hplain hport =>
    refine ⟨by simpa using hsome, Or.inl ⟨':' :: digits, ?_⟩⟩
    simpa using hplain
  | bare hsome hplain hbare =>
    have hcount : cs.count ':' = 0 := List.count_eq_zero.mpr hplain
    exact ⟨by simpa using hsome, Or.inr (Or.inr ⟨hbare, by omega, rfl⟩)⟩
  | @barePort host digits port hsome hplain hbare hport =>
    have hcount := count_colon_of_port hplain hport
    have hhead : (host ++ ':' :: digits).head? ≠ some '[' := by
      rwa [List.head?_append_of_ne_nil _ hsome]
    refine ⟨by simpa using hsome, Or.inr (Or.inl ⟨hhead, hcount, by simp, ?_⟩)⟩
    simpa using hplain
  | address hcolons hbare =>
    have hsome := ne_nil_of_colons hcolons
    exact ⟨by simpa using hsome, Or.inr (Or.inr ⟨hbare, by omega, rfl⟩)⟩

/-! ## Endpoints whose authority text can be read -/

/-- The authority text shows where the host begins and ends. -/
def Rereadable (e : Endpoint) : Prop :=
  if ':' ∈ e.host.toList then ']' ∉ e.host.toList
  else
    e.host.toList ≠ [] ∧ e.host.toList.head? ≠ some '[' ∧
      (∀ c ∈ e.host.toList.head?, isBlank c = false) ∧
      (e.port = none → ∀ c ∈ e.host.toList.getLast?, isBlank c = false)

/-- A digit is no blank. -/
theorem isBlank_of_isDigit {c : Char} (hc : c.isDigit = true) : isBlank c = false := by
  simp only [Char.isDigit, ge_iff_le, Bool.and_eq_true, decide_eq_true_eq,
    UInt32.le_iff_toNat_le] at hc
  have hlow : 48 ≤ c.toNat := hc.1
  have hhigh : c.toNat ≤ 57 := hc.2
  simp only [isBlank, Bool.or_eq_false_iff, Bool.and_eq_false_iff, decide_eq_false_iff_not,
    beq_eq_false_iff_ne]
  omega

/-- A port does not end in a blank. -/
theorem solid_getLast?_portChars (port : Option UInt16) :
    ∀ c ∈ (portChars port).getLast?, isBlank c = false := by
  intro c hc
  cases port with
  | none => simp [portChars] at hc
  | some port =>
    have hlast : (Nat.toDigits 10 port.toNat).getLast? = some c := by
      rwa [portChars, List.getLast?_cons_of_ne_nil Nat.toDigits_ne_nil] at hc
    exact isBlank_of_isDigit (isDigit_toDigits (List.mem_of_getLast? hlast))

/-- What stands before a mark is no shorter than what stands at the front without one. -/
theorem length_le_of_append_eq {mark : Char} {front rest cs tail : List Char}
    (h : front ++ mark :: rest = cs ++ tail) (hcs : mark ∉ cs) : cs.length ≤ front.length := by
  rcases List.append_eq_append_iff.mp h with ⟨more, hmore, hrest⟩ | ⟨more, hmore, -⟩
  · cases more with
    | nil => simp [hmore]
    | cons c more =>
      obtain ⟨rfl, -⟩ := List.cons.inj hrest
      simp [hmore] at hcs
  · simp [hmore]

/-- A host in brackets comes back if it holds no closing one. -/
theorem ofTrimmed_authorityChars_of_colon {e : Endpoint} (hcolon : ':' ∈ e.host.toList) :
    ofTrimmed (trimBlanks e.authorityChars) = .ok e ↔ ']' ∉ e.host.toList := by
  have htrim : trimBlanks e.authorityChars = e.authorityChars := by
    rw [authorityChars_of_colon hcolon, trimBlanks_eq_self_iff]
    constructor
    · simp [isBlank]
    · intro c hc
      cases hlast : (portChars e.port).getLast? with
      | none =>
        have hclose : c = ']' := by
          simpa [List.getLast?_append, List.getLast?_cons, hlast] using hc.symm
        simp [hclose, isBlank]
      | some d =>
        have hport : c = d := by
          simpa [List.getLast?_append, List.getLast?_cons, hlast] using hc.symm
        exact hport ▸ solid_getLast?_portChars e.port d hlast
  rw [htrim, authorityChars_of_colon hcolon]
  constructor
  · intro h
    obtain ⟨-, ⟨tail, -, hplain⟩ | ⟨hbare, -⟩ | ⟨hbare, -⟩⟩ := ofTrimmed_cases h
    · exact hplain
    · simp at hbare
    · simp at hbare
  · intro hplain
    rw [ofTrimmed_bracketed (List.ne_nil_of_mem hcolon) hplain, String.ofList_toList]

/-- A bare host without a port comes back if the text begins and ends with it. -/
theorem ofTrimmed_trimBlanks_host {e : Endpoint} (hcolon : ':' ∉ e.host.toList)
    (hport : e.port = none) :
    ofTrimmed (trimBlanks e.host.toList) = .ok e ↔
      e.host.toList ≠ [] ∧ e.host.toList.head? ≠ some '[' ∧
        trimBlanks e.host.toList = e.host.toList := by
  constructor
  · intro h
    obtain ⟨hsome, ⟨tail, heq, -⟩ | ⟨-, -, hgiven, -⟩ | ⟨hbare, -, heq⟩⟩ := ofTrimmed_cases h
    · -- what is left of the host cannot hold all of it in brackets
      have hfront := length_dropBlanks_le e.host.toList
      have hback := length_dropBlanksEnd_le (dropBlanks e.host.toList)
      rw [← trimBlanks, heq] at hback
      simp at hback
      omega
    · exact absurd hport hgiven
    · have hhost : e.host.toList = trimBlanks e.host.toList := by
        conv_lhs => rw [heq]
        simp
      exact ⟨hsome, hhost ▸ hbare, hhost.symm⟩
  · rintro ⟨hsome, hbare, htrim⟩
    have h := ofTrimmed_bare hsome hcolon hbare none
    rw [htrim]
    rw [portChars, List.append_nil, String.ofList_toList, ← hport] at h
    exact h

/-- A bare host before a port comes back if the text begins with it. -/
theorem ofTrimmed_dropBlanks_host {e : Endpoint} (hcolon : ':' ∉ e.host.toList)
    (hport : e.port ≠ none) :
    ofTrimmed (dropBlanks e.host.toList ++ portChars e.port) = .ok e ↔
      e.host.toList ≠ [] ∧ e.host.toList.head? ≠ some '[' ∧
        dropBlanks e.host.toList = e.host.toList := by
  obtain ⟨port, hsomePort⟩ := Option.ne_none_iff_exists'.mp hport
  have hfront := length_dropBlanks_le e.host.toList
  constructor
  · intro h
    obtain ⟨hsome, ⟨tail, heq, -⟩ | ⟨hbare, -, -, -, tail, heq⟩ | ⟨-, -, heq⟩⟩ :=
      ofTrimmed_cases h
    · -- before the colon there is no room for the host in brackets
      have hbrackets : ':' ∉ '[' :: (e.host.toList ++ [']']) := by simpa using hcolon
      have hsplit : dropBlanks e.host.toList ++ ':' :: Nat.toDigits 10 port.toNat =
          '[' :: (e.host.toList ++ [']']) ++ tail := by
        simpa [hsomePort, portChars] using heq
      have hlength := length_le_of_append_eq hsplit hbrackets
      simp at hlength
      omega
    · rw [hsomePort, portChars] at heq
      have hlength := length_le_of_append_eq heq hcolon
      have hkept : dropBlanks e.host.toList = e.host.toList :=
        (List.dropWhile_suffix isBlank).eq_of_length (by rw [← dropBlanks]; omega)
      refine ⟨hsome, ?_, hkept⟩
      rwa [hkept, List.head?_append_of_ne_nil _ hsome] at hbare
    · rw [heq] at hport
      exact absurd rfl hport
  · rintro ⟨hsome, hbare, hkept⟩
    rw [hkept, ofTrimmed_bare hsome hcolon hbare, String.ofList_toList]

/-- An endpoint comes back from its authority text exactly if that shows where the host is. -/
theorem parse_authority_iff (e : Endpoint) : parse e.authority = .ok e ↔ e.Rereadable := by
  rw [parse, authority, String.toList_ofList, Rereadable]
  split
  · rename_i hcolon
    exact ofTrimmed_authorityChars_of_colon hcolon
  · rename_i hcolon
    rw [authorityChars_of_no_colon hcolon]
    by_cases hport : e.port = none
    · rw [hport, portChars, List.append_nil, ofTrimmed_trimBlanks_host hcolon hport,
        trimBlanks_eq_self_iff]
      simp
    · obtain ⟨port, hsome⟩ := Option.ne_none_iff_exists'.mp hport
      have hhead : ∃ c ∈ (portChars e.port).head?, isBlank c = false :=
        ⟨':', by simp [hsome, portChars], by decide⟩
      rw [trimBlanks_append hhead (solid_getLast?_portChars e.port),
        ofTrimmed_dropBlanks_host hcolon hport, dropBlanks_eq_self_iff]
      simp [hport]

/-! ## Main statements -/

/-- An endpoint comes back from its own authority text exactly if its host has a colon and no
closing bracket, or has no colon, is there at all, does not begin with an opening bracket or a blank
and, unless a port follows, does not end with a blank. -/
theorem own_authority_reads_back_iff (e : Endpoint) :
    parse e.authority = .ok e ↔
      (':' ∈ e.host.toList ∧ ']' ∉ e.host.toList) ∨
        (':' ∉ e.host.toList ∧ e.host ≠ "" ∧ e.host.toList.head? ≠ some '[' ∧
          (∀ c ∈ e.host.toList.head?, isBlank c = false) ∧
          (e.port = none → ∀ c ∈ e.host.toList.getLast?, isBlank c = false)) := by
  rw [parse_authority_iff, Rereadable]
  have hempty : e.host.toList = [] ↔ e.host = "" := String.toList_eq_nil_iff
  by_cases hcolon : ':' ∈ e.host.toList
  · rw [if_pos hcolon]
    simp [hcolon]
  · rw [if_neg hcolon, Ne, hempty]
    simp [hcolon]

/-- An endpoint that a text is read as comes back from its own authority text, except where the text
has in brackets a host without a colon that begins like one in brackets or has blanks at an end of
its bare form, and where the text is a bare one of two colons or more with a closing bracket. -/
theorem reads_back_iff {text : String} {e : Endpoint} (h : parse text = .ok e) :
    parse e.authority = .ok e ↔
      if (trimBlanks text.toList).head? = some '[' then
        ':' ∈ e.host.toList ∨
          (e.host.toList.head? ≠ some '[' ∧ (∀ c ∈ e.host.toList.head?, isBlank c = false) ∧
            (e.port = none → ∀ c ∈ e.host.toList.getLast?, isBlank c = false))
      else (trimBlanks text.toList).count ':' ≤ 1 ∨ ']' ∉ trimBlanks text.toList := by
  rw [parse_authority_iff]
  have hsolid := trimBlanks_eq_self_iff.mp (trimBlanks_trimBlanks text.toList)
  obtain ⟨hsome, ⟨tail, heq, hplain⟩ | ⟨hbare, hcount, hport, hcolon, tail, heq⟩ |
    ⟨hbare, hcount, heq⟩⟩ := ofTrimmed_cases h
  · rw [if_pos (by simp [heq])]
    by_cases hcolon : ':' ∈ e.host.toList
    · simp [Rereadable, hcolon, hplain]
    · simp [Rereadable, hcolon, hsome]
  · rw [if_neg hbare]
    -- the host stands at the front of the text
    have hfront : (trimBlanks text.toList).head? = e.host.toList.head? := by
      rw [heq, List.head?_append_of_ne_nil _ hsome]
    have hreads : e.Rereadable := by
      rw [Rereadable, if_neg hcolon, ← hfront]
      exact ⟨hsome, hbare, hsolid.1, fun hnone => absurd hnone hport⟩
    simp [hreads, hcount]
  · rw [if_neg hbare]
    have hhost : e.host.toList = trimBlanks text.toList := by rw [heq, String.toList_ofList]
    rw [Rereadable, hhost]
    split
    · rename_i hcolon
      have hmany : ¬ (trimBlanks text.toList).count ':' ≤ 1 := by
        have hpos := List.count_pos_iff.mpr hcolon
        omega
      simp [hmany]
    · rename_i hcolon
      have hnone : (trimBlanks text.toList).count ':' = 0 := List.count_eq_zero.mpr hcolon
      apply iff_of_true
      · exact ⟨hhost ▸ hsome, hbare, hsolid.1, fun _ => hsolid.2⟩
      · exact Or.inl (by omega)

/-- The port is written another way and there are blanks around the text. -/
theorem reads_back_from_another_form :
    let text := " [fe80::1]:+0080 "
    let e : Endpoint := { host := "fe80::1", port := some 80 }
    parse text = .ok e ∧ e.authority = "[fe80::1]:80" ∧ parse e.authority = .ok e := by
  intro text e
  have h : parse text = .ok e := by cbv
  refine ⟨h, by cbv, (reads_back_iff h).mpr ?_⟩
  have hbrackets : (trimBlanks text.toList).head? = some '[' := by decide
  rw [if_pos hbrackets]
  exact Or.inl (by decide)

/-- A host that needs its brackets is shown without them, and a bare host with a closing bracket is
shown in brackets. -/
theorem some_do_not_read_back :
    let e : Endpoint := { host := " a" }
    let f : Endpoint := { host := "a:b:]" }
    (parse "[ a]" = .ok e ∧ parse e.authority = .ok { host := "a" }) ∧
      (parse "a:b:]" = .ok f ∧ parse f.authority = .error (.invalidPort "[a:b:]]")) := by
  intro e f
  refine ⟨⟨?_, ?_⟩, ?_, ?_⟩ <;> cbv

end Endpoint

end HealthWatch
