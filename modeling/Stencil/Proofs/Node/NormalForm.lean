import Mathlib.Data.List.Chain
import Stencil.Proofs.Node.RoundTrip

/-!
# The normal form of trees

No step of reading sees to the form of the whole tree, but every tree that is read has one: texts
are not empty, start with no space and do not stand next to each other, at any depth, echoes are not
empty, and what stands in tags stands there as it could be written (`parse_isNormal`). All of this
is true of the items that the tree is derived from (`Settled`), and a derivation takes it into the
nodes.
-/

set_option autoImplicit false

namespace Stencil

/-! ## What is normal -/

/-- What can stand between the quotes of a string: quotes come in pairs, and blanks stand outside of
the stretches that these pairs quote. -/
structure IsQuoted (s : List Char) : Prop where
  not_mem_brace : '}' ∉ s
  closed : Even (s.count '"')
  blanks : ∀ before c after, s = before ++ c :: after → isBlank c = true → Even (before.count '"')

/-- A name is an identifier, and a string one that can stand in a tag. -/
def Element.IsNormal : Element → Prop
  | .variable name | .function name => IsIdentifier name.toList
  | .string s => IsQuoted s.toList
  | _ => True

namespace Node

inductive Holds : Node → Node → Prop
  | self (t : Node) : Holds t t
  | inside {t child n : Node} (hmem : child ∈ t.children) (h : Holds child n) : Holds t n

def isText : Node → Bool
  | .text _ => true
  | _ => false

/-- No two texts stand next to each other. A text goes on up to a brace or to the end, so two in a
row would be one that was cut in two. -/
def TextsApart (nodes : List Node) : Prop :=
  nodes.IsChain fun node next => node.isText = true → next.isText = false

structure IsNormal (n : Node) : Prop where
  children : TextsApart n.children
  text : ∀ content, n = .text content →
    content.toList ≠ [] ∧ content.toList.head?.all (!isSpace ·) = true
  echo : ∀ elements, n = .echo elements → elements ≠ [] ∧ ∀ e ∈ elements, e.IsNormal
  loop : ∀ head body, n = .forLoop head body → IsIdentifier head.name.toList

theorem Holds.eq_of_leaf {t n : Node} (h : t.Holds n) (ht : t.children = []) : n = t := by
  cases h with
  | self => rfl
  | inside hmem _ =>
    rw [ht] at hmem
    exact absurd hmem (by simp)

end Node

/-! ## Elements -/

/-- A string is a word between its quotes, so a quote is open in the word where none is in the
string. -/
theorem isQuoted_of_isWord {s : List Char} (h : IsWord ('"' :: s ++ ['"']))
    (hbrace : '}' ∉ '"' :: s ++ ['"']) : IsQuoted s := by
  refine ⟨fun hmem => hbrace (by simp [hmem]), ?_, fun before c after hs hc => ?_⟩
  · have hcount : ('"' :: s ++ ['"']).count '"' = s.count '"' + 2 := by simp
    have hclosed := openQuote_eq_false_iff.1 h.closed
    rw [hcount] at hclosed
    exact (Nat.even_add.1 hclosed).2 even_two
  · have hopen := h.blanks ('"' :: before) c (after ++ ['"']) (by simp [hs]) hc
    rw [openQuote_cons, if_pos rfl, Bool.not_eq_true'] at hopen
    exact openQuote_eq_false_iff.1 hopen

theorem Element.FromTag.isNormal {e : Element} (h : e.FromTag) : e.IsNormal := by
  obtain ⟨word, hword, hbrace, hform⟩ := h
  cases hform with
  | identifier hname => simpa [IsNormal] using hname
  | function hname => simpa [IsNormal] using hname
  | string s => simpa [IsNormal] using isQuoted_of_isWord hword hbrace
  | operator _ | integer _ | double _ _ => trivial

/-! ## Nodes -/

namespace Node

theorem isNormal_text {content : String} (hne : content.toList ≠ [])
    (hs : content.toList.head?.all (!isSpace ·) = true) : (text content).IsNormal where
  children := .nil
  text _ h := by
    cases h
    exact ⟨hne, hs⟩
  echo _ h := absurd h (by simp)
  loop _ _ h := absurd h (by simp)

theorem isNormal_echo {elements : List Element} (hne : elements ≠ [])
    (h : ∀ e ∈ elements, e.IsNormal) : (echo elements).IsNormal where
  children := .nil
  text _ h := absurd h (by simp)
  echo _ heq := by
    cases heq
    exact ⟨hne, h⟩
  loop _ _ h := absurd h (by simp)

theorem isNormal_loop {head : Loop} {body : List Node} (hbody : TextsApart body)
    (hname : IsIdentifier head.name.toList) : (forLoop head body).IsNormal where
  children := hbody
  text _ h := absurd h (by simp)
  echo _ h := absurd h (by simp)
  loop _ _ h := by
    cases h
    exact hname

theorem isNormal_document {nodes : List Node} (h : TextsApart nodes) :
    (document nodes).IsNormal where
  children := h
  text _ h := absurd h (by simp)
  echo _ h := absurd h (by simp)
  loop _ _ h := absurd h (by simp)

end Node

theorem Settled.of_append {front back : List Item} (h : Settled (front ++ back)) :
    Settled front ∧ Settled back := by
  induction front with
  | nil => exact ⟨.nil, h⟩
  | cons item front ih =>
    cases h with
    | text hne hs hn h =>
      obtain ⟨hfront, hback⟩ := ih h
      exact ⟨.text hne hs (fun other rest heq => hn other (rest ++ back) (by rw [heq]; rfl)) hfront,
        hback⟩
    | tag he ht h =>
      obtain ⟨hfront, hback⟩ := ih h
      exact ⟨.tag he ht hfront, hback⟩

theorem Derives.exists_text {items : List Item} {nodes : List Node} {content : String}
    (h : Derives items (.text content :: nodes)) : ∃ rest, items = .text content :: rest := by
  cases h with
  | text _ => exact ⟨_, rfl⟩

theorem Node.TextsApart.cons {node : Node} {nodes : List Node} (hnode : node.isText = false)
    (h : TextsApart nodes) : TextsApart (node :: nodes) :=
  List.isChain_cons.2 ⟨fun _ _ htext => absurd htext (by simp [hnode]), h⟩

/-- What is derived from settled items is normal. That no two texts are neighbours has to be shown
of the items first, since an echo or a loop between two texts of the tree is a tag between two texts
of the list. -/
theorem Derives.isNormal {items : List Item} {nodes : List Node} (h : Derives items nodes) :
    Settled items →
      Node.TextsApart nodes ∧ ∀ node ∈ nodes, ∀ n, node.Holds n → n.IsNormal := by
  induction h with
  | nil => exact fun _ => ⟨.nil, fun _ hmem => absurd hmem (by simp)⟩
  | text hd ih =>
    rename_i content items nodes
    intro hsettled
    cases hsettled with
    | text hne hs hn hsettled =>
      obtain ⟨hapart, hnormal⟩ := ih hsettled
      refine ⟨List.isChain_cons.2 ⟨fun next hnext _ => ?_, hapart⟩, fun node hmem n hn => ?_⟩
      · -- A text behind this one would be derived from a text, and no text stands behind another.
        obtain ⟨nodes, rfl⟩ : ∃ rest, nodes = next :: rest := List.head?_eq_some_iff.1 hnext
        cases next with
        | text other =>
          obtain ⟨rest, rfl⟩ := hd.exists_text
          exact absurd rfl (hn other rest)
        | _ => rfl
      · rcases List.mem_cons.1 hmem with rfl | hmem
        · rw [hn.eq_of_leaf rfl]
          exact Node.isNormal_text hne hs
        · exact hnormal node hmem n hn
  | echo _ ih =>
    rename_i elements items nodes _
    intro hsettled
    cases hsettled with
    | tag he ht hsettled =>
      obtain ⟨hapart, hnormal⟩ := ih hsettled
      refine ⟨hapart.cons rfl, fun node hmem n hn => ?_⟩
      rcases List.mem_cons.1 hmem with rfl | hmem
      · rw [hn.eq_of_leaf rfl]
        exact Node.isNormal_echo ht.elements_ne_nil fun e hmem => (ht.fromTag he e hmem).isNormal
      · exact hnormal node hmem n hn
  | loop _ _ ihbody ih =>
    rename_i head inner items body nodes _ _
    intro hsettled
    cases hsettled with
    | tag he ht hsettled =>
      obtain ⟨hinner, hclose⟩ := hsettled.of_append
      obtain ⟨hbody, hbodyNormal⟩ := ihbody hinner
      cases hclose with
      | tag _ _ hsettled =>
        obtain ⟨hapart, hnormal⟩ := ih hsettled
        refine ⟨hapart.cons rfl, fun node hmem n hn => ?_⟩
        rcases List.mem_cons.1 hmem with rfl | hmem
        · cases hn with
          | self => exact Node.isNormal_loop hbody (ht.words_of_loop he).2
          | inside hchild hn => exact hbodyNormal _ hchild n hn
        · exact hnormal node hmem n hn

/-! ## The ends of a document -/

theorem Node.listingAll_append (front back : List Node) :
    listingAll (front ++ back) = listingAll front ++ listingAll back := by
  induction front with
  | nil => rfl
  | cons node front ih => rw [List.cons_append, listingAll, listingAll, ih, List.append_assoc]

section

variable {items : List Item} {nodes : List Node} {content : String}

/-- The items of a template are trimmed as they are written, and a text shows at its ends what is
written there. -/
theorem head?_of_trimmed (h : Derives items nodes) (htrim : Trimmed (items.flatMap Item.chars))
    (hne : content.toList ≠ []) (hfirst : nodes.head? = some (.text content)) :
    content.toList.head?.all (!isBlank ·) = true := by
  obtain ⟨nodes, rfl⟩ := List.head?_eq_some_iff.1 hfirst
  obtain ⟨rest, rfl⟩ := h.exists_text
  have hr : Escaped (Item.chars (.text content)) content.toList := escaped_escape _
  have hhead := htrim.1
  rwa [List.flatMap_cons, List.head?_append_of_ne_nil _ (by rwa [ne_eq, hr.eq_nil_iff]),
    hr.head?_all rfl rfl] at hhead

theorem getLast?_of_trimmed (h : Derives items nodes) (htrim : Trimmed (items.flatMap Item.chars))
    (hne : content.toList ≠ []) (hlast : nodes.getLast? = some (.text content)) :
    content.toList.getLast?.all (!isBlank ·) = true := by
  obtain ⟨front, rfl⟩ := List.getLast?_eq_some_iff.1 hlast
  have hitems : Node.listingAll front ++ [.text content] = items := by
    rw [← h.listing_eq, Node.listingAll_append]
    rfl
  have hr : Escaped (Item.chars (.text content)) content.toList := escaped_escape _
  have hback := htrim.2
  rw [← hitems, List.flatMap_append, List.flatMap_singleton,
    List.getLast?_append_of_ne_nil _ (by rwa [ne_eq, hr.eq_nil_iff]), hr.getLast?_eq] at hback
  exact hback

end

/-- Every tree that is read from a template is normal, in all that it holds, and a text at either
end of the document has no blank there. -/
theorem parse_isNormal {s : String} {t : Node} (h : parse s = .ok t) :
    (∀ n, t.Holds n → n.IsNormal) ∧
      (∀ content, t.children.head? = some (.text content) →
        content.toList.head?.all (!isBlank ·) = true) ∧
      ∀ content, t.children.getLast? = some (.text content) →
        content.toList.getLast?.all (!isBlank ·) = true := by
  obtain ⟨pieces, items, nodes, hcuts, hread, hderives, rfl⟩ := parse_eq_ok_iff_cuts.1 h
  obtain ⟨hapart, hnormal⟩ := hderives.isNormal (settled_of_cuts hcuts hread)
  have htrim := trimmed_flatMap hcuts hread (trimmed_trim _)
  have hne : ∀ content, Node.text content ∈ nodes → content.toList ≠ [] := fun content hmem =>
    ((hnormal _ hmem _ (.self _)).text content rfl).1
  refine ⟨fun n hn => ?_, fun content hfirst => ?_, fun content hlast => ?_⟩
  · cases hn with
    | self => exact Node.isNormal_document hapart
    | inside hchild hn => exact hnormal _ hchild n hn
  · exact head?_of_trimmed hderives htrim (hne content (List.mem_of_head? hfirst)) hfirst
  · exact getLast?_of_trimmed hderives htrim (hne content (List.mem_of_getLast? hlast)) hlast

/-- A loop between two texts, of which the last one would end with a blank. It is not there in the
tree, since blanks at both ends of a template are cut off before it is read. -/
theorem parse_isNormal_loop :
    let t : Node := .document [.text "a",
      .forLoop ⟨"i", 1, 2, none⟩ [.echo [.string "b c", .variable "i"]], .text "z"]
    parse "a\x7b$for i 1 2$\x7d \x7b$= \"b c\" i $\x7d\x7b$end$\x7d z\n" = .ok t ∧
      (∀ n, t.Holds n → n.IsNormal) ∧
      (∀ content, t.children.head? = some (.text content) →
        content.toList.head?.all (!isBlank ·) = true) ∧
      ∀ content, t.children.getLast? = some (.text content) →
        content.toList.getLast?.all (!isBlank ·) = true := by
  intro t
  have hfor : Enclosed "\x7b$for i 1 2$\x7d".toList := ⟨"$for i 1 2$".toList, rfl, by decide⟩
  have hecho : Enclosed "\x7b$= \"b c\" i $\x7d".toList := ⟨"$= \"b c\" i $".toList, rfl, by decide⟩
  have hend : Enclosed "\x7b$end$\x7d".toList := ⟨"$end$".toList, rfl, by decide⟩
  have ha : Escaped ['a'] ['a'] := .plain rfl .nil
  have hz : Escaped ['z'] ['z'] := .plain rfl .nil
  have hcuts : Cuts
      (trim "a\x7b$for i 1 2$\x7d \x7b$= \"b c\" i $\x7d\x7b$end$\x7d z\n".toList)
      [.text ['a'], .tag "\x7b$for i 1 2$\x7d".toList, .tag "\x7b$= \"b c\" i $\x7d".toList,
        .tag "\x7b$end$\x7d".toList, .text ['z']] :=
    .text ha (by simp) rfl rfl (.tag hfor (.space rfl (.tag hecho (.tag hend (.space rfl
      (.text hz (by simp) rfl rfl .nil))))))
  have hread : parse "a\x7b$for i 1 2$\x7d \x7b$= \"b c\" i $\x7d\x7b$end$\x7d z\n" = .ok t :=
    parse_eq_ok_iff_cuts.2 ⟨_, [.text "a", .tag (.loop ⟨"i", 1, 2, none⟩),
      .tag (.echo [.string "b c", .variable "i"]), .tag .close, .text "z"], _, hcuts,
      .cons (.text _) (.cons (.tag (Tag.ofChars_eq_ok_iff.1 rfl))
        (.cons (.tag (Tag.ofChars_eq_ok_iff.1 rfl))
          (.cons (.tag (Tag.ofChars_eq_ok_iff.1 rfl)) (.cons (.text _) .nil)))),
      .text (.loop (.echo .nil) (.text .nil)), rfl⟩
  exact ⟨hread, parse_isNormal hread⟩

end Stencil
