import HealthWatch.Proofs.Endpoint.Grammar

/-!
# An endpoint is known by its authority text

Nothing is escaped in an authority text, and any text is a host, so a host may look like the text of
another endpoint: like one in brackets, or like one with a port. Still no two endpoints share their
text. It shows a host and then a port (`authorityChars_eq`), and a port is a colon with digits
behind it. A host is shown with a bracket behind its last colon, or it has no colon, so a shown host
never ends like a port (`shownHost_ne_append_port`). And a host without a colon is shown as no host
with one is, since that keeps its colon.
-/

set_option autoImplicit false

namespace HealthWatch.Endpoint

/-! ## The parts of the text -/

/-- The characters by which an authority text shows a host. -/
def shownHost (host : List Char) : List Char :=
  if ':' ∈ host then '[' :: (host ++ [']']) else host

/-- The characters by which an authority text shows a port. -/
def portChars : Option UInt16 → List Char
  | none => []
  | some port => ':' :: Nat.toDigits 10 port.toNat

/-- An authority text shows the host and then the port. -/
theorem authorityChars_eq (e : Endpoint) :
    e.authorityChars = shownHost e.host.toList ++ portChars e.port := by
  cases hport : e.port <;> simp [authorityChars, shownHost, portChars, hport]

/-- A host with a colon is shown in brackets. -/
theorem authorityChars_of_colon {e : Endpoint} (h : ':' ∈ e.host.toList) :
    e.authorityChars = '[' :: (e.host.toList ++ ']' :: portChars e.port) := by
  simp [authorityChars_eq, shownHost, h]

/-- A host without a colon is shown as it is. -/
theorem authorityChars_of_no_colon {e : Endpoint} (h : ':' ∉ e.host.toList) :
    e.authorityChars = e.host.toList ++ portChars e.port := by
  simp [authorityChars_eq, shownHost, h]

/-- The decimal digits of a number are digits to the reader. -/
theorem isDigit_toDigits {n : Nat} {c : Char} (hc : c ∈ Nat.toDigits 10 n) : c.isDigit = true :=
  Nat.isDigit_of_mem_toDigits (by decide) (by decide) hc

/-- A character that is no digit is not in the decimal digits of a number. -/
theorem notMem_toDigits {c : Char} (hc : c.isDigit = false) (n : Nat) : c ∉ Nat.toDigits 10 n := by
  intro hin
  rw [isDigit_toDigits hin] at hc
  cases hc

/-! ## Where the port begins -/

/-- There is one way to cut a text at its last mark. -/
theorem append_cons_inj_of_last {mark : Char} {front rest front' rest' : List Char}
    (hrest : mark ∉ rest) (hrest' : mark ∉ rest')
    (h : front ++ mark :: rest = front' ++ mark :: rest') : front = front' ∧ rest = rest' := by
  have hcut : cutAt? mark (rest.reverse ++ mark :: front.reverse) =
      some (rest.reverse, front.reverse) :=
    cutAt?_append (by simpa using hrest) front.reverse
  have hcut' : cutAt? mark (rest'.reverse ++ mark :: front'.reverse) =
      some (rest'.reverse, front'.reverse) :=
    cutAt?_append (by simpa using hrest') front'.reverse
  -- read backwards, the last mark is the first one
  have hreversed : rest.reverse ++ mark :: front.reverse =
      rest'.reverse ++ mark :: front'.reverse := by
    simpa using congrArg List.reverse h
  rw [hreversed, hcut'] at hcut
  simpa [eq_comm, and_comm] using hcut

/-- Two ports with the same digits are the same. -/
theorem toDigits_inj {port port' : UInt16}
    (h : Nat.toDigits 10 port.toNat = Nat.toDigits 10 port'.toNat) : port = port' := by
  have hvalue := congrArg (fun digits => Nat.ofDigitChars 10 digits 0) h
  apply UInt16.toNat_inj.mp
  simpa using hvalue

/-- A shown host ends in a bracket or has no colon, so it does not end like a port. -/
theorem shownHost_ne_append_port (host front : List Char) (port : UInt16) :
    shownHost host ≠ front ++ ':' :: Nat.toDigits 10 port.toNat := by
  unfold shownHost
  by_cases hcolon : ':' ∈ host
  · rw [if_pos hcolon]
    intro h
    have hlast : ((front ++ [':']) ++ Nat.toDigits 10 port.toNat).getLast? = some ']' := by
      rw [List.append_assoc, List.singleton_append, ← h, ← List.cons_append, List.getLast?_concat]
    rw [List.getLast?_append_of_ne_nil _ Nat.toDigits_ne_nil] at hlast
    exact notMem_toDigits (by decide) _ (List.mem_of_getLast? hlast)
  · rw [if_neg hcolon]
    rintro rfl
    simp at hcolon

/-- The text of a host and a port shows where the host ends. -/
theorem shownHost_append_inj {host host' : List Char} {port port' : Option UInt16}
    (h : shownHost host ++ portChars port = shownHost host' ++ portChars port') :
    shownHost host = shownHost host' ∧ port = port' := by
  have hdigits : ∀ n : Nat, ':' ∉ Nat.toDigits 10 n := notMem_toDigits (by decide)
  cases port with
  | none =>
    rw [portChars, List.append_nil] at h
    cases port' with
    | none =>
      rw [portChars, List.append_nil] at h
      exact ⟨h, rfl⟩
    | some p' => exact absurd h (shownHost_ne_append_port host _ p')
  | some p =>
    cases port' with
    | none =>
      rw [portChars, portChars, List.append_nil] at h
      exact absurd h.symm (shownHost_ne_append_port host' _ p)
    | some p' =>
      obtain ⟨hhost, hport⟩ := append_cons_inj_of_last (hdigits _) (hdigits _) h
      exact ⟨hhost, congrArg some (toDigits_inj hport)⟩

/-- Showing a host neither brings in a colon nor loses one. -/
theorem mem_shownHost_colon {host : List Char} : ':' ∈ shownHost host ↔ ':' ∈ host := by
  unfold shownHost
  by_cases hcolon : ':' ∈ host <;> simp [hcolon]

/-- Two hosts that are shown alike are the same. -/
theorem shownHost_inj {host host' : List Char} (h : shownHost host = shownHost host') :
    host = host' := by
  have hcolons : ':' ∈ host ↔ ':' ∈ host' := by
    rw [← mem_shownHost_colon, h, mem_shownHost_colon]
  unfold shownHost at h
  by_cases hcolon : ':' ∈ host
  · rw [if_pos hcolon, if_pos (hcolons.mp hcolon)] at h
    simpa using h
  · rwa [if_neg hcolon, if_neg (mt hcolons.mpr hcolon)] at h

/-! ## Main statement -/

/-- Two endpoints have the same authority text only if they are the same. -/
theorem authority_inj {e f : Endpoint} : e.authority = f.authority ↔ e = f := by
  constructor
  · intro h
    have hchars : e.authorityChars = f.authorityChars := String.ofList_inj.mp h
    rw [authorityChars_eq, authorityChars_eq] at hchars
    obtain ⟨hshown, hport⟩ := shownHost_append_inj hchars
    have hhost : e.host = f.host := String.toList_inj.mp (shownHost_inj hshown)
    calc e = ⟨e.host, e.port⟩ := rfl
      _ = ⟨f.host, f.port⟩ := by rw [hhost, hport]
      _ = f := rfl
  · rintro rfl
    rfl

end HealthWatch.Endpoint
