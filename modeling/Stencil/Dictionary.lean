/-!
# Dictionaries

Entries under names, in the order in which the names were first put in. What a name holds is all
that `get?` shows; the order shows where entries are listed.
-/

set_option autoImplicit false

namespace Stencil

/-- Entries under names. `put` and `erase` keep at most one entry for a name, and a name that is put
in again stays where it was first put, which shows where entries are listed. -/
structure Dictionary (α : Type) where
  entries : List (String × α)
deriving DecidableEq

namespace Dictionary

variable {α : Type}

def empty : Dictionary α := ⟨[]⟩

def get? (d : Dictionary α) (name : String) : Option α := d.entries.lookup name

def contains (d : Dictionary α) (name : String) : Bool := d.entries.any (·.1 == name)

/-- Replaces the entry of a name where it stands, or adds one at the end. The order of entries is
that of their first assignment, and shows where names are listed. -/
def putEntry (name : String) (a : α) : List (String × α) → List (String × α)
  | [] => [(name, a)]
  | (k, b) :: rest => if name == k then (k, a) :: rest else (k, b) :: putEntry name a rest

def put (d : Dictionary α) (name : String) (a : α) : Dictionary α := ⟨putEntry name a d.entries⟩

def erase (d : Dictionary α) (name : String) : Dictionary α :=
  ⟨d.entries.filter (fun e => !(e.1 == name))⟩

/-- Puts entries in one after another, so that of several for a name the last one stays, in the
place of the first. -/
def putAll (d : Dictionary α) (entries : List (String × α)) : Dictionary α :=
  entries.foldl (fun d e => d.put e.1 e.2) d

def ofEntries (entries : List (String × α)) : Dictionary α := empty.putAll entries

def names (d : Dictionary α) : List String := d.entries.map (·.1)

/-- The names in ascending order of their code points, which is the order that lists of names are
shown in, whatever the order they were put in. -/
def sortedNames (d : Dictionary α) : List String := d.names.mergeSort (fun a b => decide (a ≤ b))

/-! ## What a name holds -/

theorem lookup_putEntry (name k : String) (a : α) (entries : List (String × α)) :
    (putEntry name a entries).lookup k = if k = name then some a else entries.lookup k := by
  induction entries with
  | nil =>
    by_cases h : k = name
    · simp [putEntry, h]
    · simp [putEntry, List.lookup_cons, h, beq_eq_false_iff_ne.2 h]
  | cons e rest ih =>
    obtain ⟨k', b⟩ := e
    by_cases hn : name = k'
    · subst hn
      by_cases hk : k = name
      · simp [putEntry, hk]
      · simp [putEntry, List.lookup_cons, hk, beq_eq_false_iff_ne.2 hk]
    · by_cases hk : k = k'
      · subst hk
        simp [putEntry, hn, Ne.symm hn]
      · simp [putEntry, List.lookup_cons, hn, ih, beq_eq_false_iff_ne.2 hk]

@[simp] theorem get?_put_self (d : Dictionary α) (name : String) (a : α) :
    (d.put name a).get? name = some a := by
  simp [get?, put, lookup_putEntry]

theorem get?_put_of_ne (d : Dictionary α) {name k : String} (a : α) (h : k ≠ name) :
    (d.put name a).get? k = d.get? k := by
  simp [get?, put, lookup_putEntry, h]

theorem get?_erase (d : Dictionary α) (name k : String) :
    (d.erase name).get? k = if k = name then none else d.get? k := by
  obtain ⟨entries⟩ := d
  simp only [get?, erase]
  induction entries with
  | nil => simp
  | cons e rest ih =>
    obtain ⟨k', b⟩ := e
    by_cases hn : k' = name
    · subst hn
      rw [List.filter_cons_of_neg (by simp), ih]
      by_cases hk : k = k'
      · rw [if_pos hk, if_pos hk]
      · rw [if_neg hk, if_neg hk, List.lookup_cons, beq_eq_false_iff_ne.2 hk]
    · rw [List.filter_cons_of_pos (by simp [hn])]
      by_cases hk : k = k'
      · subst hk
        rw [if_neg hn]
        simp
      · simp only [List.lookup_cons, beq_eq_false_iff_ne.2 hk]
        exact ih

end Dictionary

end Stencil
