import Stencil.Command.Assignment
import Stencil.Proofs.Steps
import Stencil.Proofs.Text.Span

/-!
# Assignments put over parameters

An item is an assignment if it is a name, an equals sign and a value, of which the name holds no
equals sign and something else than blanks. Assignments are put over parameters one by one, from
left to right (`assign_eq_ok_iff`), and that succeeds just if every item is an assignment
(`exists_overridden_iff`).
-/

set_option autoImplicit false

namespace Stencil

/-- The item assigns a value to a name. The first equals sign parts the two, so only a value can
hold others; blanks around a name do not belong to it, and those around a value do. -/
inductive Assigns : String → String → String → Prop
  | intro {front value : List Char} (hsign : '=' ∉ front) (hname : trim front ≠ []) :
      Assigns (String.ofList (front ++ '=' :: value)) (String.ofList (trim front))
        (String.ofList value)

def IsAssignment (item : String) : Prop := ∃ name value, Assigns item name value

/-- Parameters, items, and the parameters after these have been put over them in order. So an item
counts more than the parameters given, and of two items for a name the later one counts. -/
inductive Overridden : Dictionary String → List String → Dictionary String → Prop
  | nil (d : Dictionary String) : Overridden d [] d
  | cons {d d' : Dictionary String} {item name value : String} {items : List String}
      (h : Assigns item name value) (hrest : Overridden (d.put name value) items d') :
      Overridden d (item :: items) d'

namespace Assignment

variable {item name value : String}

theorem read_of_assigns (h : Assigns item name value) : read item = .ok (name, value) := by
  cases h with
  | intro hsign hname =>
    rename_i front value
    have hspan : ∀ c ∈ front, decide (c ≠ '=') = true := by
      intro c hmem
      rw [decide_eq_true_eq]
      rintro rfl
      exact hsign hmem
    have hempty : (trim front).isEmpty = false := by simpa using hname
    unfold read
    rw [String.toList_ofList, dropWhile_span hspan rfl, takeWhile_span hspan rfl]
    dsimp only
    rw [hempty]
    rfl

theorem assigns_of_read (h : read item = .ok (name, value)) : Assigns item name value := by
  have hsplit := List.takeWhile_append_dropWhile (p := (· ≠ '=')) (l := item.toList)
  have hhead := List.head?_dropWhile_not (· ≠ '=') item.toList
  have hsign : '=' ∉ item.toList.takeWhile (· ≠ '=') := fun hmem =>
    absurd (List.mem_takeWhile_imp hmem) (by simp)
  unfold read at h
  generalize item.toList.takeWhile (· ≠ '=') = front at *
  generalize item.toList.dropWhile (· ≠ '=') = back at *
  cases back with
  | nil => exact absurd h (by simp)
  | cons c rest =>
    obtain rfl : c = '=' := by simpa using hhead
    have hitem : item = String.ofList (front ++ '=' :: rest) := by
      rw [hsplit, String.ofList_toList]
    dsimp only at h
    split at h
    · exact absurd h (by simp)
    · rename_i hname
      obtain ⟨rfl, rfl⟩ := Prod.mk.inj (Except.ok.inj h)
      rw [hitem]
      exact .intro hsign (by simpa using hname)

end Assignment

namespace Dictionary

open Assignment

variable {d d' : Dictionary String} {items : List String}

theorem assign_cons (d : Dictionary String) (item : String) (items : List String) :
    d.assign (item :: items) = read item >>= fun a => (d.put a.1 a.2).assign items := by
  rw [assign, readAll]
  cases read item with
  | error fault => rfl
  | ok a =>
    show Except.map d.putAll (readAll items >>= fun as => pure (a :: as)) = _
    show _ = (readAll items).map _
    cases readAll items <;> rfl

theorem assign_eq_ok_iff : d.assign items = .ok d' ↔ Overridden d items d' := by
  induction items generalizing d with
  | nil =>
    refine ⟨fun h => ?_, fun h => ?_⟩
    · obtain rfl := Except.ok.inj h
      exact .nil d
    · cases h
      rfl
  | cons item items ih =>
    rw [assign_cons, bind_eq_ok_iff]
    constructor
    · rintro ⟨⟨name, value⟩, hread, hrest⟩
      exact .cons (assigns_of_read hread) (ih.1 hrest)
    · rintro (_ | ⟨h, hrest⟩)
      exact ⟨_, read_of_assigns h, ih.2 hrest⟩

end Dictionary

/-- All items can be put over parameters just if each of them is an assignment. Whether one is does
not depend on the others, so there is no order in which a bad item would pass. -/
theorem exists_overridden_iff {d : Dictionary String} {items : List String} :
    (∃ d', Overridden d items d') ↔ ∀ item ∈ items, IsAssignment item := by
  induction items generalizing d with
  | nil => exact ⟨fun _ => by simp, fun _ => ⟨d, .nil d⟩⟩
  | cons item items ih =>
    rw [List.forall_mem_cons]
    constructor
    · rintro ⟨d', _ | ⟨h, hrest⟩⟩
      exact ⟨⟨_, _, h⟩, ih.1 ⟨d', hrest⟩⟩
    · rintro ⟨⟨name, value, h⟩, hrest⟩
      obtain ⟨d', hd'⟩ := ih.2 hrest
      exact ⟨d', .cons h hd'⟩

end Stencil
