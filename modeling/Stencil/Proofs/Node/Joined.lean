import Stencil.Proofs.Node.RoundTrip

/-!
# Templates put together

Two templates that are accepted make a third one, with nothing between them but what stands at their
own ends: its pieces are those of the first followed by those of the second, and so are its items
and its nodes. Only where a text meets a text the two become one (`joinBy`).
-/

set_option autoImplicit false

namespace Stencil

/-! ## Lists with a seam -/

section

variable {α β : Type} (merge : α → α → Option α)

/-- Lists put together. The last of the first and the first of the second may become one. Pieces,
items and nodes of two templates all go together like this, each with a merging of its own, for two
texts that meet are one text. -/
def joinBy : List α → List α → List α
  | [], ys => ys
  | [x], y :: ys =>
    match merge x y with
    | some z => z :: ys
    | none => x :: y :: ys
  | x :: xs, ys => x :: joinBy xs ys

theorem joinBy_cons_of_ne_nil (x : α) {xs : List α} (h : xs ≠ []) (ys : List α) :
    joinBy merge (x :: xs) ys = x :: joinBy merge xs ys := by
  cases xs with
  | nil => exact absurd rfl h
  | cons x' xs => rfl

theorem joinBy_cons_of_none {x : α} (h : ∀ y, merge x y = none) (xs ys : List α) :
    joinBy merge (x :: xs) ys = x :: joinBy merge xs ys := by
  cases xs with
  | cons x' xs => rfl
  | nil =>
    cases ys with
    | nil => rfl
    | cons y ys =>
      show (match merge x y with | some z => z :: ys | none => x :: y :: ys) = x :: y :: ys
      rw [h y]

theorem joinBy_append {xs : List α} (front : List α) (h : xs ≠ []) (ys : List α) :
    joinBy merge (front ++ xs) ys = front ++ joinBy merge xs ys := by
  induction front with
  | nil => rfl
  | cons x front ih =>
    rw [List.cons_append, joinBy_cons_of_ne_nil merge x (by simp [h]), ih]
    rfl

/-- There is a seam, or the lists simply follow each other. This is the only case split that joining
needs. -/
theorem joinBy_cases (xs ys : List α) :
    (∃ front x y back z, xs = front ++ [x] ∧ ys = y :: back ∧ merge x y = some z ∧
        joinBy merge xs ys = front ++ z :: back) ∨ joinBy merge xs ys = xs ++ ys := by
  rcases List.eq_nil_or_concat xs with rfl | ⟨front, x, rfl⟩
  · exact .inr rfl
  · rw [List.concat_eq_append, joinBy_append merge front (by simp)]
    cases ys with
    | nil => exact .inr (by simp [joinBy])
    | cons y back =>
      rw [joinBy]
      cases hmerge : merge x y with
      | none => exact .inr (by simp)
      | some z => exact .inl ⟨front, x, y, back, z, rfl, rfl, hmerge, rfl⟩

variable {merge}

theorem forall₂_joinBy {R : α → β → Prop} {merge' : β → β → Option β}
    (hmerge : ∀ x y x' y', R x x' → R y y' → Option.Rel R (merge x y) (merge' x' y'))
    {xs ys : List α} {xs' ys' : List β} (hxs : List.Forall₂ R xs xs')
    (hys : List.Forall₂ R ys ys') :
    List.Forall₂ R (joinBy merge xs ys) (joinBy merge' xs' ys') := by
  induction hxs with
  | nil => exact hys
  | @cons x x' xs xs' hx hrest ih =>
    cases hrest with
    | cons hnext hrest => exact .cons hx ih
    | nil =>
      cases hys with
      | nil => exact .cons hx .nil
      | @cons y y' ys ys' hy hys =>
        -- Here the lists meet, and either the two merge on both sides or on neither.
        have hrel := hmerge x y x' y' hx hy
        rw [joinBy, joinBy]
        cases hz : merge x y with
        | none =>
          rw [hz] at hrel
          cases hz' : merge' x' y' with
          | none => exact .cons hx (.cons hy hys)
          | some z' =>
            rw [hz'] at hrel
            cases hrel
        | some z =>
          rw [hz] at hrel
          cases hz' : merge' x' y' with
          | none =>
            rw [hz'] at hrel
            cases hrel
          | some z' =>
            rw [hz'] at hrel
            cases hrel with
            | some hz => exact .cons hz hys

end

/-! ## What becomes one -/

def Piece.merge : Piece → Piece → Option Piece
  | .text a, .text b => some (.text (a ++ b))
  | _, _ => none

def Item.merge : Item → Item → Option Item
  | .text a, .text b => some (.text (a ++ b))
  | _, _ => none

def Node.merge : Node → Node → Option Node
  | .text a, .text b => some (.text (a ++ b))
  | _, _ => none

theorem Piece.merge_tag (tag : List Char) (p : Piece) : merge (.tag tag) p = none := rfl

theorem Item.merge_tag (t : Tag) (item : Item) : merge (.tag t) item = none := rfl

theorem Node.exists_of_merge {m n k : Node} (h : m.merge n = some k) :
    ∃ a b, m = .text a ∧ n = .text b ∧ k = .text (a ++ b) := by
  unfold merge at h
  split at h
  · exact ⟨_, _, rfl, rfl, (Option.some.inj h).symm⟩
  · exact nomatch h

theorem Piece.Reads.merge {p q : Piece} {item item' : Item} (h : p.Reads item)
    (h' : q.Reads item') : Option.Rel Piece.Reads (p.merge q) (item.merge item') := by
  cases h with
  | tag _ => exact .none
  | text a =>
    cases h' with
    | tag _ => exact .none
    | text b =>
      refine .some ?_
      rw [← String.ofList_append]
      exact .text (a ++ b)

/-! ## Pieces -/

theorem Trimmed.append {cs ds : List Char} (h : Trimmed cs) (h' : Trimmed ds) :
    Trimmed (cs ++ ds) := by
  by_cases hcs : cs = []
  · rw [hcs]
    exact h'
  · refine ⟨?_, ?_⟩
    · rw [List.head?_append_of_ne_nil cs hcs]
      exact h.1
    · rw [getLast?_append_all]
      split
      · exact h.2
      · exact h'.2

theorem Escaped.append {raw raw' value value' : List Char} (h : Escaped raw value)
    (h' : Escaped raw' value') : Escaped (raw ++ raw') (value ++ value') := by
  induction h with
  | nil => exact h'
  | plain hc _ ih => exact .plain hc ih
  | escape hc _ ih => exact .escape hc ih

/-- A text at the end goes on with a text that follows. An escape is never cut in two, since the
first text ends with whole escapes. -/
theorem Cuts.append_text {raw value ds : List Char} {pieces : List Piece} (hr : Escaped raw value)
    (hne : raw ≠ []) (hs : raw.head?.all (!isSpace ·)) (h : Cuts ds pieces)
    (hds : ds.head?.all (!isSpace ·)) :
    Cuts (raw ++ ds) (joinBy Piece.merge [.text value] pieces) := by
  cases h with
  | nil => exact .text hr hne hs rfl .nil
  | space hc _ =>
    rw [List.head?_cons, Option.all_some, hc] at hds
    exact absurd hds (by simp)
  | tag he h =>
    obtain ⟨inner, rfl, -⟩ := id he
    exact .text hr hne hs rfl (.tag he h)
  | text hr' hne' _ hc h =>
    rw [← List.append_assoc]
    refine .text (hr.append hr') (by simp [hne]) ?_ hc h
    rwa [List.head?_append_of_ne_nil raw hne]

/-- Where spaces do not begin the second, what is cut apart is cut apart as before. Spaces there
would belong to no piece if the first part ended with a tag, but to its text otherwise. -/
theorem Cuts.append {cs ds : List Char} {pieces pieces' : List Piece} (h : Cuts cs pieces)
    (h' : Cuts ds pieces') (hds : ds.head?.all (!isSpace ·)) :
    Cuts (cs ++ ds) (joinBy Piece.merge pieces pieces') := by
  induction h with
  | nil => exact h'
  | space hc _ ih => exact .space hc ih
  | tag he _ ih =>
    rw [List.append_assoc, joinBy_cons_of_none Piece.merge (Piece.merge_tag _)]
    exact .tag he ih
  | @text raw value cs pieces hr hne hs hc h ih =>
    rw [List.append_assoc]
    by_cases hpieces : pieces = []
    · -- Nothing follows the text, since what follows it starts with a brace.
      subst hpieces
      obtain rfl := h.eq_nil_of_brace hc
      exact .append_text hr hne hs h' hds
    · rw [joinBy_cons_of_ne_nil Piece.merge _ hpieces]
      refine .text hr hne hs ?_ ih
      cases cs with
      | nil => exact absurd (h.unique .nil) hpieces
      | cons c cs => exact hc

/-! ## Nodes -/

theorem Derives.eq_nil_iff {items : List Item} {nodes : List Node} (h : Derives items nodes) :
    items = [] ↔ nodes = [] := by
  cases h <;> simp

theorem Derives.join {items items' : List Item} {nodes nodes' : List Node}
    (h : Derives items nodes) (h' : Derives items' nodes') :
    Derives (joinBy Item.merge items items') (joinBy Node.merge nodes nodes') := by
  induction h with
  | nil => exact h'
  | @text content items nodes h ih =>
    by_cases hitems : items = []
    · -- Only the last text can go on with what follows.
      have hnodes := h.eq_nil_iff.1 hitems
      subst hitems
      subst hnodes
      cases h' with
      | nil => exact .text .nil
      | text h' => exact .text h'
      | echo h' => exact .text (.echo h')
      | loop hb h' => exact .text (.loop hb h')
    · have hnodes : nodes ≠ [] := fun hnodes => hitems (h.eq_nil_iff.2 hnodes)
      rw [joinBy_cons_of_ne_nil Item.merge _ hitems, joinBy_cons_of_ne_nil Node.merge _ hnodes]
      exact .text ih
  | echo _ ih =>
    rw [joinBy_cons_of_none Item.merge (Item.merge_tag _),
      joinBy_cons_of_none Node.merge fun _ => rfl]
    exact .echo ih
  | loop hb _ _ ih =>
    rw [joinBy_cons_of_none Item.merge (Item.merge_tag _), joinBy_append Item.merge _ (by simp),
      joinBy_cons_of_none Item.merge (Item.merge_tag _),
      joinBy_cons_of_none Node.merge fun _ => rfl]
    exact .loop hb ih

/-! ## Templates -/

/-- The document of two templates put together, each without the blanks at its ends. Their children
follow each other, but for a text at the end of the first that meets one at the beginning of the
second: these two become one. -/
theorem parse_joined {s₁ s₂ : String} {d₁ d₂ : Node} (h₁ : parse s₁ = .ok d₁)
    (h₂ : parse s₂ = .ok d₂) :
    parse (trimText s₁ ++ trimText s₂) =
      .ok (.document (joinBy Node.merge d₁.children d₂.children)) := by
  obtain ⟨pieces, items, nodes, hcuts, hread, hderives, rfl⟩ := parse_eq_ok_iff_cuts.1 h₁
  obtain ⟨pieces', items', nodes', hcuts', hread', hderives', rfl⟩ := parse_eq_ok_iff_cuts.1 h₂
  have htrimmed := trimmed_trim s₂.toList
  have hchars : trim (trimText s₁ ++ trimText s₂).toList = trim s₁.toList ++ trim s₂.toList := by
    rw [String.toList_append, trimText, trimText, String.toList_ofList, String.toList_ofList]
    exact ((trimmed_trim s₁.toList).append htrimmed).trim_eq
  have hspace : (trim s₂.toList).head?.all (!isSpace ·) := by
    cases hhead : (trim s₂.toList).head? with
    | none => rfl
    | some c =>
      have hblank := htrimmed.1
      rw [hhead, Option.all_some, Bool.not_eq_true'] at hblank
      simp only [Option.all_some, Bool.not_eq_true']
      exact Bool.eq_false_iff.2 fun hc => absurd (isBlank_of_isSpace hc) (by simp [hblank])
  have hcuts := hcuts.append hcuts' hspace
  rw [← hchars] at hcuts
  have hread := forall₂_joinBy (fun _ _ _ _ h h' => h.merge h') hread hread'
  exact parse_eq_ok_iff_cuts.2 ⟨_, _, _, hcuts, hread, hderives.join hderives', rfl⟩

end Stencil
