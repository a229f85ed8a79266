/-!
# Families of samples

A family holds one value for each set of labels that it has a sample of. Setting and removing a
sample touch no other: that is `get?_set` and `get?_remove` for the value that is looked up, and
`valuesAt_set` and `valuesAt_remove` for all values with the same labels.
-/

set_option autoImplicit false

namespace HealthWatch

/-- The samples of a family by their labels, at most one for each. -/
structure Family (κ ν : Type) where
  samples : List (κ × ν) := []
deriving Repr, Inhabited

namespace Family

variable {κ ν : Type} [BEq κ]

/-- The value of the sample with these labels. -/
def get? (f : Family κ ν) (labels : κ) : Option ν :=
  f.samples.lookup labels

/-- The family without the sample with these labels. -/
def remove (f : Family κ ν) (labels : κ) : Family κ ν :=
  ⟨f.samples.filter (fun sample => !(labels == sample.1))⟩

/-- The family with the value of one sample set. -/
def set (f : Family κ ν) (labels : κ) (value : ν) : Family κ ν :=
  ⟨(labels, value) :: (f.remove labels).samples⟩

/-- The family with a sample's value changed; one that is not there yet begins at `initial`. -/
def update (f : Family κ ν) (labels : κ) (initial : ν) (change : ν → ν) : Family κ ν :=
  f.set labels (change ((f.get? labels).getD initial))

/-- The values of all samples with these labels. -/
def valuesAt (f : Family κ ν) (labels : κ) : List ν :=
  (f.samples.filter (fun sample => labels == sample.1)).map Prod.snd

variable [LawfulBEq κ]

/-- Removing takes away the one sample. -/
theorem get?_remove (f : Family κ ν) (labels other : κ) :
    (f.remove labels).get? other = if labels == other then none else f.get? other := by
  simp only [get?, remove]
  induction f.samples with
  | nil => simp
  | cons sample rest ih =>
    obtain ⟨key, value⟩ := sample
    grind

/-- Setting gives the one sample its value. -/
theorem get?_set (f : Family κ ν) (labels other : κ) (value : ν) :
    (f.set labels value).get? other = if labels == other then some value else f.get? other := by
  have removed := get?_remove f labels other
  simp only [get?, set, List.lookup_cons] at removed ⊢
  cases h : other == labels <;> cases h' : labels == other <;> simp_all

omit [LawfulBEq κ] in
/-- The value that is looked up is the first one. -/
theorem get?_eq_head? (f : Family κ ν) (labels : κ) :
    f.get? labels = (f.valuesAt labels).head? := by
  simp only [get?, valuesAt]
  induction f.samples with
  | nil => rfl
  | cons sample rest ih =>
    obtain ⟨key, value⟩ := sample
    cases h : labels == key <;> simp [List.lookup_cons, h, ih]

/-- Removing the sample of some labels leaves all other samples. -/
theorem valuesAt_remove (f : Family κ ν) (labels other : κ) :
    (f.remove labels).valuesAt other = if labels == other then [] else f.valuesAt other := by
  simp only [valuesAt, remove, List.filter_filter]
  split
  · rename_i h
    obtain rfl := eq_of_beq h
    simp
  · congr 1
    apply List.filter_congr
    intro sample _
    grind

/-- Where a sample is set, it is the only one. -/
theorem valuesAt_set (f : Family κ ν) (labels other : κ) (value : ν) :
    (f.set labels value).valuesAt other =
      if labels == other then [value] else f.valuesAt other := by
  have removed := valuesAt_remove f labels other
  simp only [valuesAt, set] at removed ⊢
  split
  · rename_i h
    obtain rfl := eq_of_beq h
    rw [List.filter_cons_of_pos (by simp), List.map_cons, removed, if_pos h]
  · rename_i h
    have hother : (other == labels) = false := by grind
    rw [List.filter_cons_of_neg (by simp [hother]), removed, if_neg h]

end Family

end HealthWatch
