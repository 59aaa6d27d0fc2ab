import Stencil.Proofs.Node.Derivation

/-!
# Trees written and read again

The two halves of the round trip meet at `Settled`, what is true of the items of every template:
what is read is settled, and settled items are cut apart again when they are written. What then
comes of the tags depends on their numbers, since an infinite double has no literal.
-/

set_option autoImplicit false

namespace Stencil

/-! ## Escapes -/

theorem escaped_escape (cs : List Char) : Escaped (Node.escape cs) cs := by
  induction cs with
  | nil => exact .nil
  | cons c cs ih =>
    rw [Node.escape, List.flatMap_cons]
    by_cases hc : c = '\\' ∨ c = '{'
    · rw [if_pos hc]
      exact .escape (by simpa [Lexer.isEscapable] using hc) ih
    · rw [if_neg hc]
      exact .plain (by simpa [Lexer.isEscapable] using hc) ih

namespace Escaped

variable {raw value : List Char}

theorem eq_nil_iff (h : Escaped raw value) : raw = [] ↔ value = [] := by
  cases h <;> simp

/-- An escape does not tell in the first character, for what is true of no escaped one. It is used
of blanks: none of them is ever escaped, and a backslash is none. -/
theorem head?_all (h : Escaped raw value) {p : Char → Bool} (hs : p '\\' = true)
    (hb : p '{' = true) : raw.head?.all p = value.head?.all p := by
  cases h with
  | nil => rfl
  | plain _ _ => rfl
  | escape hc h =>
    rename_i c raw value
    have hc : c = '\\' ∨ c = '{' := by simpa [Lexer.isEscapable] using hc
    rcases hc with rfl | rfl
    · simp [hs]
    · simp [hs, hb]

theorem getLast?_eq (h : Escaped raw value) : raw.getLast? = value.getLast? := by
  induction h with
  | nil => rfl
  | plain _ h ih =>
    rw [List.getLast?_cons, List.getLast?_cons, ih]
  | escape _ h ih =>
    rw [List.getLast?_cons, List.getLast?_cons, List.getLast?_cons, ih]
    simp

end Escaped

/-! ## Items as they are written -/

namespace Item

def chars : Item → List Char
  | .text content => Node.escape content.toList
  | .tag t => t.chars

def piece : Item → Piece
  | .text content => .text content.toList
  | .tag t => .tag t.chars

def elements : Item → List Element
  | .text _ => []
  | .tag t => t.elements

end Item

theorem Derives.listChars_eq {items : List Item} {nodes : List Node} (h : Derives items nodes) :
    Node.listChars nodes = items.flatMap Item.chars := by
  induction h with
  | nil => rfl
  | text _ ih => simp [Node.listChars, Node.chars, Node.openingChars, Item.chars, ih]
  | echo _ ih => simp [Node.listChars, Node.chars, Item.chars, Tag.chars, ih]
  | loop _ _ ihb ih => simp [Node.listChars, Node.chars, Item.chars, Tag.chars, ihb, ih]

/-! ## What is true of the items of a template -/

/-- Items that a template can have: no text is empty, starts with a space or stands next to another
one, and every tag was read from a tag. These are the items that can be told apart again when they
are written one behind the other (`cuts_of_settled`). -/
inductive Settled : List Item → Prop
  | nil : Settled []
  | text {content : String} {items : List Item} (hne : content.toList ≠ [])
      (hs : content.toList.head?.all (!isSpace ·))
      (hn : ∀ other rest, items ≠ .text other :: rest) (h : Settled items) :
      Settled (.text content :: items)
  | tag {tag : List Char} {t : Tag} {items : List Item} (he : Enclosed tag)
      (ht : TagGrammar tag t) (h : Settled items) : Settled (.tag t :: items)

theorem Cuts.not_text_of_brace {cs : List Char} {pieces : List Piece} (h : Cuts cs pieces)
    (hcs : cs.head?.all (· == '{')) : ∀ value rest, pieces ≠ .text value :: rest := by
  intro value rest heq
  cases h with
  | nil => exact absurd heq (by simp)
  | space hc _ =>
    obtain rfl : _ = '{' := by simpa using hcs
    exact absurd hc (by decide)
  | tag _ _ => exact absurd heq (by simp)
  | text hr hne _ _ _ =>
    cases hr with
    | nil => exact absurd rfl hne
    | plain hc _ =>
      obtain rfl : _ = '{' := by simpa using hcs
      exact absurd hc (by decide)
    | escape _ _ => exact absurd hcs (by simp)

/-- What is read from a template is settled. The pieces of a template say more than its items do,
namely how a text was written; of that only what writing it again can change is left. -/
theorem settled_of_cuts {cs : List Char} {pieces : List Piece} (h : Cuts cs pieces) :
    ∀ {items : List Item}, List.Forall₂ Piece.Reads pieces items → Settled items := by
  induction h with
  | nil =>
    intro items hread
    cases hread
    exact .nil
  | space _ _ ih => exact ih
  | tag he _ ih =>
    intro items hread
    obtain ⟨_, items, hitem, hitems, rfl⟩ := List.forall₂_cons_left_iff.1 hread
    cases hitem with
    | tag ht => exact .tag he ht (ih hitems)
  | text hr hne hs hc h ih =>
    intro items hread
    obtain ⟨_, items, hitem, hitems, rfl⟩ := List.forall₂_cons_left_iff.1 hread
    cases hitem with
    | text value =>
      refine .text ?_ ?_ ?_ (ih hitems)
      · rwa [String.toList_ofList, ne_eq, ← hr.eq_nil_iff]
      · rwa [String.toList_ofList, ← hr.head?_all rfl rfl]
      · -- A text ends at a brace, and no text starts with one.
        rintro other rest rfl
        obtain ⟨piece, pieces, hpiece, -, rfl⟩ := List.forall₂_cons_right_iff.1 hitems
        cases hpiece
        exact h.not_text_of_brace hc _ _ rfl

/-- Settled items fall apart again as they were written. A text is written with every escape that it
needs, so no brace in it starts a tag, and the next tag ends it. -/
theorem cuts_of_settled {items : List Item} (h : Settled items) :
    Cuts (items.flatMap Item.chars) (items.map Item.piece) := by
  induction h with
  | nil => exact .nil
  | text hne hs hn h ih =>
    rename_i content items
    rw [List.flatMap_cons, List.map_cons]
    have hr : Escaped (Item.chars (.text content)) content.toList := escaped_escape _
    refine .text hr (by rwa [ne_eq, hr.eq_nil_iff]) (by rwa [hr.head?_all rfl rfl]) ?_ ih
    -- What follows the text has to stop it. No text does, so it is a tag or nothing.
    cases h with
    | nil => rfl
    | text _ _ _ _ => exact absurd rfl (hn _ _)
    | tag he ht _ =>
      obtain ⟨inner, hchars, -⟩ := ht.enclosed_chars he
      simp [Item.chars, hchars]
  | tag he ht _ ih =>
    rw [List.flatMap_cons, List.map_cons]
    exact .tag (ht.enclosed_chars he) ih

/-! ## Blanks at the ends -/

theorem getLast?_append_all (xs ys : List Char) (p : Char → Bool) :
    (xs ++ ys).getLast?.all p = if ys = [] then xs.getLast?.all p else ys.getLast?.all p := by
  by_cases h : ys = []
  · simp [h]
  · rw [List.getLast?_append_of_ne_nil xs h, if_neg h]

theorem Enclosed.ends {tag : List Char} (h : Enclosed tag) :
    tag ≠ [] ∧ tag.head?.all (!isBlank ·) ∧ tag.getLast?.all (!isBlank ·) := by
  obtain ⟨inner, rfl, -⟩ := h
  refine ⟨by simp, rfl, ?_⟩
  rw [← List.cons_append, getLast?_append_all]
  rfl

theorem Settled.flatMap_ne_nil {items : List Item} (h : Settled items) (hne : items ≠ []) :
    items.flatMap Item.chars ≠ [] := by
  cases h with
  | nil => exact absurd rfl hne
  | text hc _ _ _ =>
    rw [List.flatMap_cons]
    intro hnil
    exact hc ((escaped_escape _).eq_nil_iff.1 (List.append_eq_nil_iff.1 hnil).1)
  | tag he ht _ =>
    rw [List.flatMap_cons]
    intro hnil
    exact (ht.enclosed_chars he).ends.1 (List.append_eq_nil_iff.1 hnil).1

theorem Cuts.eq_nil_of_brace {cs : List Char} (h : Cuts cs []) (hcs : cs.head?.all (· == '{')) :
    cs = [] := by
  cases h with
  | nil => rfl
  | space hc _ =>
    obtain rfl : _ = '{' := by simpa using hcs
    exact absurd hc (by decide)

theorem head?_flatMap_of_cuts {cs : List Char} {pieces : List Piece} {items : List Item}
    (h : Cuts cs pieces) (hread : List.Forall₂ Piece.Reads pieces items)
    (hcs : cs.head?.all (!isBlank ·)) : (items.flatMap Item.chars).head?.all (!isBlank ·) := by
  cases h with
  | nil =>
    cases hread
    rfl
  | space hc _ =>
    rw [List.head?_cons, Option.all_some, isBlank_of_isSpace hc] at hcs
    exact absurd hcs (by simp)
  | tag he _ =>
    obtain ⟨_, items, hitem, -, rfl⟩ := List.forall₂_cons_left_iff.1 hread
    cases hitem with
    | tag ht =>
      obtain ⟨hne, hhead, -⟩ := (ht.enclosed_chars he).ends
      rw [List.flatMap_cons, Item.chars, List.head?_append_of_ne_nil _ hne]
      exact hhead
  | text hr hne hs hc h =>
    rename_i raw value rest pieces
    obtain ⟨_, items, hitem, -, rfl⟩ := List.forall₂_cons_left_iff.1 hread
    cases hitem with
    | text =>
      have hr' : Escaped (Item.chars (.text (String.ofList value))) value := by
        simpa [Item.chars] using escaped_escape value
      have hne' : Item.chars (.text (String.ofList value)) ≠ [] := by
        rwa [ne_eq, hr'.eq_nil_iff, ← hr.eq_nil_iff]
      rw [List.head?_append_of_ne_nil _ hne, hr.head?_all rfl rfl] at hcs
      rw [List.flatMap_cons, List.head?_append_of_ne_nil _ hne', hr'.head?_all rfl rfl]
      exact hcs

/-- No blank comes to stand at the end, for the last character of a text is never that of an escape.
Blanks there would be cut off when the template is read again. -/
theorem getLast?_flatMap_of_cuts {cs : List Char} {pieces : List Piece} (h : Cuts cs pieces) :
    ∀ {items : List Item}, List.Forall₂ Piece.Reads pieces items → cs.getLast?.all (!isBlank ·) →
      (items.flatMap Item.chars).getLast?.all (!isBlank ·) := by
  induction h with
  | nil =>
    intro items hread _
    cases hread
    rfl
  | space _ _ ih =>
    rename_i c cs pieces _ _
    intro items hread hcs
    refine ih hread ?_
    cases cs with
    | nil => rfl
    | cons d cs => rwa [List.getLast?_cons_cons] at hcs
  | tag he _ ih =>
    rename_i tag cs pieces _
    intro items hread hcs
    obtain ⟨_, items, hitem, hitems, rfl⟩ := List.forall₂_cons_left_iff.1 hread
    cases hitem with
    | tag ht =>
      rw [List.flatMap_cons, getLast?_append_all]
      split
      · exact (ht.enclosed_chars he).ends.2.2
      · refine ih hitems ?_
        rw [getLast?_append_all] at hcs
        by_cases hnil : cs = []
        · rw [hnil]
          rfl
        · rwa [if_neg hnil] at hcs
  | text hr hne hs hc h ih =>
    rename_i raw value cs pieces
    intro items hread hcs
    obtain ⟨_, items, hitem, hitems, rfl⟩ := List.forall₂_cons_left_iff.1 hread
    cases hitem with
    | text =>
      rw [getLast?_append_all] at hcs
      rw [List.flatMap_cons, getLast?_append_all]
      split
      · -- Nothing follows the text, so it is what the template ended with.
        rename_i hnil
        have hitems' : items = [] := by
          by_contra hsome
          exact (settled_of_cuts h hitems).flatMap_ne_nil hsome hnil
        subst hitems'
        obtain rfl := List.forall₂_nil_right_iff.1 hitems
        rw [if_pos (h.eq_nil_of_brace hc), hr.getLast?_eq] at hcs
        have hr' : Escaped (Item.chars (.text (String.ofList value))) value := by
          simpa [Item.chars] using escaped_escape value
        rwa [hr'.getLast?_eq]
      · refine ih hitems ?_
        by_cases hnil : cs = []
        · rw [hnil]
          rfl
        · rwa [if_neg hnil] at hcs

theorem trimmed_flatMap {cs : List Char} {pieces : List Piece} {items : List Item}
    (h : Cuts cs pieces) (hread : List.Forall₂ Piece.Reads pieces items) (hcs : Trimmed cs) :
    Trimmed (items.flatMap Item.chars) :=
  ⟨head?_flatMap_of_cuts h hread hcs.1, getLast?_flatMap_of_cuts h hread hcs.2⟩

/-! ## Reading what was written -/

theorem Cuts.unique {cs : List Char} {pieces pieces' : List Piece} (h : Cuts cs pieces)
    (h' : Cuts cs pieces') : pieces = pieces' := by
  obtain ⟨tokens, hscans, rfl⟩ := h.exists_scans Place.start
  obtain ⟨tokens', hscans', rfl⟩ := h'.exists_scans Place.start
  rw [hscans.unique hscans']

/-- Reading, told by the pieces of a template alone. Neither tokens nor places are left in here, so
this is the form that writing a tree and reading it again are compared in. -/
theorem parse_eq_ok_iff_cuts {s : String} {t : Node} :
    parse s = .ok t ↔ ∃ pieces items nodes, Cuts (trim s.toList) pieces ∧
      List.Forall₂ Piece.Reads pieces items ∧ Derives items nodes ∧ t = .document nodes := by
  rw [parse_eq_ok_iff]
  constructor
  · rintro ⟨tokens, items, nodes, htokens, hlisted, hderives, ht⟩
    exact ⟨_, items, nodes, exists_tokenize_iff.1 ⟨tokens, htokens, rfl⟩, hlisted, hderives, ht⟩
  · rintro ⟨pieces, items, nodes, hcuts, hread, hderives, ht⟩
    obtain ⟨tokens, htokens, rfl⟩ := exists_tokenize_iff.2 hcuts
    exact ⟨tokens, items, nodes, htokens, hread, hderives, ht⟩

theorem parse_tags {s : String} (tags : List (List Char)) {ts : List Tag} {nodes : List Node}
    (hs : trim s.toList = tags.flatten)
    (ht : List.Forall₂ (fun tag t => Enclosed tag ∧ Tag.ofChars tag = .ok t) tags ts)
    (hd : Derives (ts.map .tag) nodes) : parse s = .ok (.document nodes) := by
  have hread : List.Forall₂ Piece.Reads (tags.map .tag) (ts.map .tag) := by
    rw [List.forall₂_map_left_iff, List.forall₂_map_right_iff]
    exact ht.imp fun _ _ h => .tag (Tag.ofChars_eq_ok_iff.1 h.2)
  have hcuts : Cuts tags.flatten (tags.map .tag) := by
    clear hs hd hread
    induction ht with
    | nil => exact .nil
    | cons h _ ih => exact .tag h.1 ih
  exact parse_eq_ok_iff_cuts.2 ⟨_, _, _, hs ▸ hcuts, hread, hd, rfl⟩

/-- The canonical source of a tree that was read falls into the canonical texts of its items. So
what it is read as is derived from what each of these is read as. -/
theorem parse_source_eq_ok_iff {s : String} {t : Node} (h : parse s = .ok t) :
    ∃ items nodes, t = .document nodes ∧ Derives items nodes ∧ Settled items ∧
      ∀ t', parse t.source = .ok t' ↔ ∃ items' nodes',
        List.Forall₂ (fun item item' => item.piece.Reads item') items items' ∧
          Derives items' nodes' ∧ t' = .document nodes' := by
  obtain ⟨pieces, items, nodes, hcuts, hread, hderives, rfl⟩ := parse_eq_ok_iff_cuts.1 h
  have hsettled := settled_of_cuts hcuts hread
  have hsource : (Node.document nodes).source.toList = items.flatMap Item.chars := by
    rw [Node.source, String.toList_ofList, Node.chars, hderives.listChars_eq]
  -- The source is trimmed as it stands, so it is cut where the items meet.
  have htrim := (trimmed_flatMap hcuts hread (trimmed_trim _)).trim_eq
  have hcuts' := cuts_of_settled hsettled
  rw [← htrim, ← hsource] at hcuts'
  refine ⟨items, nodes, rfl, hderives, hsettled, fun t' => ?_⟩
  rw [parse_eq_ok_iff_cuts]
  constructor
  · rintro ⟨pieces', items', nodes', hpieces, hread', hderives', ht'⟩
    rw [hpieces.unique hcuts', List.forall₂_map_left_iff] at hread'
    exact ⟨items', nodes', hread', hderives', ht'⟩
  · rintro ⟨items', nodes', hread', hderives', ht'⟩
    exact ⟨_, items', nodes', hcuts', List.forall₂_map_left_iff.2 hread', hderives', ht'⟩

def Node.elements (t : Node) : List Element := t.listing.flatMap Item.elements

theorem Settled.tag_of_mem {items : List Item} (h : Settled items) :
    ∀ t, Item.tag t ∈ items → ∃ tag, Enclosed tag ∧ TagGrammar tag t := by
  induction h with
  | nil => exact fun _ hmem => absurd hmem (by simp)
  | text _ _ _ _ ih =>
    intro t hmem
    rcases List.mem_cons.1 hmem with heq | hmem
    · exact absurd heq (by simp)
    · exact ih t hmem
  | tag he ht _ ih =>
    intro t hmem
    rcases List.mem_cons.1 hmem with heq | hmem
    · cases heq
      exact ⟨_, he, ht⟩
    · exact ih t hmem

theorem Derives.elements_eq {items : List Item} {nodes : List Node} (h : Derives items nodes) :
    (Node.document nodes).elements = items.flatMap Item.elements := by
  rw [Node.elements, Node.listing, h.listing_eq]

theorem reads_of_isFinite {items : List Item} (h : Settled items)
    (hfinite : ∀ e ∈ items.flatMap Item.elements, e.isFinite = true) :
    List.Forall₂ (fun item item' => item.piece.Reads item') items items := by
  rw [List.forall₂_same]
  intro item hmem
  cases item with
  | text content =>
    have hread := Piece.Reads.text content.toList
    rwa [String.ofList_toList] at hread
  | tag t =>
    obtain ⟨tag, he, ht⟩ := h.tag_of_mem t hmem
    exact .tag (ht.grammar_chars he fun e hemem =>
      hfinite e (List.mem_flatMap.2 ⟨.tag t, hmem, hemem⟩))

/-- A template without infinite doubles is the same tree when it is written and read again. The
trees are equal with all their constants, so that a negative zero stays negative and every double
keeps all its bits. -/
theorem parse_source {s : String} {t : Node} (h : parse s = .ok t)
    (hfinite : ∀ e ∈ t.elements, e.isFinite = true) : parse t.source = .ok t := by
  obtain ⟨items, nodes, rfl, hderives, hsettled, hagain⟩ := parse_source_eq_ok_iff h
  rw [hderives.elements_eq] at hfinite
  exact (hagain _).2 ⟨items, nodes, reads_of_isFinite hsettled hfinite, hderives, rfl⟩

/-- A loop around an echo of a negative zero and of a string with a dollar sign. The zero is written
with its sign, and a dollar sign in a string needs no escape. -/
theorem parse_source_loop :
    ∃ t, parse "x\x7b$for i +1 3$\x7d \x7b$=-0.0 \"a$b\"$\x7d\x7b$ End $\x7d" = .ok t ∧
      (∀ e ∈ t.elements, e.isFinite = true) ∧ parse t.source = .ok t := by
  let t : Node := .document [.text "x",
    .forLoop ⟨"i", 1, 3, none⟩ [.echo [.double (.finite true ⟨0, by decide⟩), .string "a$b"]]]
  have hfor : Enclosed "\x7b$for i +1 3$\x7d".toList := ⟨"$for i +1 3$".toList, rfl, by decide⟩
  have hecho : Enclosed "\x7b$=-0.0 \"a$b\"$\x7d".toList :=
    ⟨"$=-0.0 \"a$b\"$".toList, rfl, by decide⟩
  have hend : Enclosed "\x7b$ End $\x7d".toList := ⟨"$ End $".toList, rfl, by decide⟩
  have hx : Escaped ['x'] ['x'] := .plain rfl .nil
  have hcuts : Cuts (trim "x\x7b$for i +1 3$\x7d \x7b$=-0.0 \"a$b\"$\x7d\x7b$ End $\x7d".toList)
      [.text ['x'], .tag "\x7b$for i +1 3$\x7d".toList, .tag "\x7b$=-0.0 \"a$b\"$\x7d".toList,
        .tag "\x7b$ End $\x7d".toList] :=
    .text hx (by simp) rfl rfl (.tag hfor (.space rfl (.tag hecho (.tag hend .nil))))
  have hbody : Derives [.tag (.echo [.double (.finite true ⟨0, by decide⟩), .string "a$b"])]
      [.echo [.double (.finite true ⟨0, by decide⟩), .string "a$b"]] := .echo .nil
  have hread : parse "x\x7b$for i +1 3$\x7d \x7b$=-0.0 \"a$b\"$\x7d\x7b$ End $\x7d" = .ok t :=
    parse_eq_ok_iff_cuts.2 ⟨_, [.text "x", .tag (.loop ⟨"i", 1, 3, none⟩),
      .tag (.echo [.double (.finite true ⟨0, by decide⟩), .string "a$b"]), .tag .close], _, hcuts,
      .cons (.text _) (.cons (.tag (Tag.ofChars_eq_ok_iff.1 rfl))
        (.cons (.tag (Tag.ofChars_eq_ok_iff.1 rfl))
          (.cons (.tag (Tag.ofChars_eq_ok_iff.1 rfl)) .nil))),
      .text (.loop hbody .nil), rfl⟩
  have hfinite : ∀ e ∈ t.elements, e.isFinite = true := by decide
  exact ⟨t, hread, hfinite, parse_source hread hfinite⟩

/-! ## Kinds -/

/-- The kind of a node, for an echo with the kinds of its elements. Names, numbers and texts are
left out: this is how much a reader can rely on where values are not kept. -/
inductive NodeKind where
  | document
  | text
  | echo (kinds : List String)
  | forLoop
deriving DecidableEq

namespace Node

mutual

/-- The kinds of a node and of all that it holds, depth first. -/
def outline : Node → List NodeKind
  | .document children => .document :: outlineAll children
  | .text _ => [.text]
  | .echo elements => [.echo (elements.map Element.kindName)]
  | .forLoop _ body => .forLoop :: outlineAll body

def outlineAll : List Node → List NodeKind
  | [] => []
  | n :: ns => outline n ++ outlineAll ns

end

/-- Written and read again, a tree keeps the kinds of its nodes and of its elements. -/
def KeepsKinds (t : Node) : Prop := ∃ t', parse t.source = .ok t' ∧ t'.outline = t.outline

end Node

def Item.kind? : Item → Option NodeKind
  | .text _ => some .text
  | .tag (.echo elements) => some (.echo (elements.map Element.kindName))
  | .tag (.loop _) => some .forLoop
  | .tag .close => none

theorem Derives.outline_eq {items : List Item} {nodes : List Node} (h : Derives items nodes) :
    Node.outlineAll nodes = items.filterMap Item.kind? := by
  induction h with
  | nil => rfl
  | text _ ih => simp [Node.outlineAll, Node.outline, Item.kind?, ih]
  | echo _ ih => simp [Node.outlineAll, Node.outline, Item.kind?, ih]
  | loop _ _ ihb ih =>
    rename_i l inner items body nodes _ _
    have hend : (Item.tag .close :: items).filterMap Item.kind? = items.filterMap Item.kind? :=
      List.filterMap_cons_none rfl
    simp [Node.outlineAll, Node.outline, Item.kind?, ihb, ih, hend]

theorem isFinite_of_kinds {elements elements' : List Element}
    (h : List.Forall₂ (fun e e' => WordForm e.chars e') elements elements')
    (hkinds : elements'.map Element.kindName = elements.map Element.kindName) :
    (∀ e ∈ elements, e.FromTag) → ∀ e ∈ elements, e.isFinite = true := by
  induction h with
  | nil => exact fun _ _ hmem => absurd hmem (by simp)
  | cons hform _ ih =>
    obtain ⟨hkind, htail⟩ := List.cons.inj hkinds
    intro hfrom e hmem
    rcases List.mem_cons.1 hmem with rfl | hmem
    · obtain ⟨word, -, -, hread⟩ := hfrom e List.mem_cons_self
      exact hread.isFinite_of_kindName hform hkind
    · exact ih htail (fun e hmem => hfrom e (List.mem_cons_of_mem _ hmem)) e hmem

/-- What an item and the item that it is read as have in common: both begin a node or neither does,
and if their kinds agree no double was infinite. -/
theorem isFinite_of_kind {item item' : Item} (hread : item.piece.Reads item')
    (hitem : ∀ t, item = .tag t → ∃ tag, Enclosed tag ∧ TagGrammar tag t) :
    (item'.kind?.isSome ↔ item.kind?.isSome) ∧
      (item'.kind? = item.kind? → ∀ e ∈ item.elements, e.isFinite = true) := by
  cases item with
  | text content =>
    cases hread
    exact ⟨Iff.rfl, fun _ _ hmem => absurd hmem (by simp [Item.elements])⟩
  | tag t =>
    obtain ⟨tag, he, ht⟩ := hitem t rfl
    cases hread with
    | tag hgrammar =>
      rename_i t'
      rcases (ht.grammar_chars_iff he).1 hgrammar with ⟨hecho, heq⟩ | ⟨es, es', rfl, rfl, hforms⟩
      · -- Only an echo has elements.
        subst heq
        refine ⟨Iff.rfl, fun _ e hmem => ?_⟩
        have hnone : (Item.tag t').elements = [] := by
          cases t' with
          | echo es => exact absurd rfl (hecho es)
          | close => rfl
          | loop l => rfl
        rw [hnone] at hmem
        exact absurd hmem (by simp)
      · refine ⟨Iff.rfl, fun hkind => ?_⟩
        rw [Item.kind?, Item.kind?, Option.some.injEq, NodeKind.echo.injEq] at hkind
        exact isFinite_of_kinds hforms hkind (ht.fromTag he)

theorem filterMap_cons_inj {α β : Type} {f : α → Option β} {a a' : α} {as as' : List α}
    (hsome : (f a').isSome ↔ (f a).isSome)
    (h : (a' :: as').filterMap f = (a :: as).filterMap f) :
    f a' = f a ∧ as'.filterMap f = as.filterMap f := by
  rw [List.filterMap_cons, List.filterMap_cons] at h
  cases ha : f a with
  | none =>
    cases ha' : f a' with
    | none => simpa [ha, ha'] using h
    | some b' => simp [ha, ha'] at hsome
  | some b =>
    cases ha' : f a' with
    | none => simp [ha, ha'] at hsome
    | some b' => simpa [ha, ha'] using h

theorem isFinite_of_outline {items items' : List Item}
    (h : List.Forall₂ (fun item item' => item.piece.Reads item') items items') :
    (∀ t, Item.tag t ∈ items → ∃ tag, Enclosed tag ∧ TagGrammar tag t) →
      items'.filterMap Item.kind? = items.filterMap Item.kind? →
        ∀ e ∈ items.flatMap Item.elements, e.isFinite = true := by
  induction h with
  | nil => exact fun _ _ _ hmem => absurd hmem (by simp)
  | cons hread _ ih =>
    rename_i item item' items items' _
    intro htags hkinds e hmem
    obtain ⟨hsome, hfinite⟩ := isFinite_of_kind hread fun t heq => htags t (by simp [heq])
    obtain ⟨hkind, htail⟩ := filterMap_cons_inj hsome hkinds
    rw [List.flatMap_cons, List.mem_append] at hmem
    rcases hmem with hmem | hmem
    · exact hfinite hkind e hmem
    · exact ih (fun t hmem => htags t (List.mem_cons_of_mem _ hmem)) htail e hmem

theorem isFinite_of_keepsKinds {s : String} {t : Node} (h : parse s = .ok t)
    (hkeeps : t.KeepsKinds) : ∀ e ∈ t.elements, e.isFinite = true := by
  obtain ⟨items, nodes, rfl, hderives, hsettled, hagain⟩ := parse_source_eq_ok_iff h
  obtain ⟨t', ht', houtline⟩ := hkeeps
  obtain ⟨items', nodes', hread, hderives', rfl⟩ := (hagain t').1 ht'
  rw [Node.outline, Node.outline, List.cons.injEq, hderives'.outline_eq, hderives.outline_eq]
    at houtline
  rw [hderives.elements_eq]
  exact isFinite_of_outline hread hsettled.tag_of_mem houtline.2

/-- Which templates keep their kinds: those without infinite doubles. An infinity is what a literal
that is too large for a double denotes, and there is no literal for it that would not be read as a
word. -/
theorem keepsKinds_iff {s : String} {t : Node} (h : parse s = .ok t) :
    t.KeepsKinds ↔ ∀ e ∈ t.elements, e.isFinite = true := by
  constructor
  · exact isFinite_of_keepsKinds h
  · intro hfinite
    obtain ⟨items, nodes, rfl, hderives, hsettled, hagain⟩ := parse_source_eq_ok_iff h
    rw [hderives.elements_eq] at hfinite
    exact ⟨_, (hagain _).2 ⟨items, nodes, reads_of_isFinite hsettled hfinite, hderives, rfl⟩, rfl⟩

theorem parse_echo {s : String} {elements : List Element} (he : Enclosed (trim s.toList))
    (ht : Tag.ofChars (trim s.toList) = .ok (.echo elements)) :
    parse s = .ok (.document [.echo elements]) :=
  parse_tags [_] (by simp) (.cons ⟨he, ht⟩ .nil) (.echo .nil)

/-- The infinity that a literal denotes becomes a variable. It is written as a word of letters, and
such a word is the name of one. -/
theorem keepsKinds_iff_infinity :
    ∃ t, parse "\x7b$= 1e999 $\x7d" = .ok t ∧
      (t.KeepsKinds ↔ ∀ e ∈ t.elements, e.isFinite = true) := by
  have hread : parse "\x7b$= 1e999 $\x7d" = .ok (.document [.echo [.double (.infinite false)]]) :=
    parse_echo ⟨"$= 1e999 $".toList, rfl, by decide⟩ (by decide +kernel)
  exact ⟨_, hread, keepsKinds_iff hread⟩

/-- A negative infinity is not read as a double again, nor as anything else. What begins with a
minus can only be an operator or a number, and this is neither. -/
theorem not_keepsKinds_infinity :
    ∃ t, parse "\x7b$= -1e999 $\x7d" = .ok t ∧ ¬ t.KeepsKinds := by
  have hread : parse "\x7b$= -1e999 $\x7d" = .ok (.document [.echo [.double (.infinite true)]]) :=
    parse_echo ⟨"$= -1e999 $".toList, rfl, by decide⟩ (by decide +kernel)
  refine ⟨_, hread, fun hkeeps => ?_⟩
  have hfinite := isFinite_of_keepsKinds hread hkeeps (.double (.infinite true)) (by decide)
  exact absurd hfinite (by decide)

end Stencil
