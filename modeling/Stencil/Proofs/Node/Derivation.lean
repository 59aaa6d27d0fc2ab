import Stencil.Node.Parser
import Stencil.Proofs.Token.Pieces

/-!
# Derivations of trees

The grammar of templates, over items instead of characters: an item is a text or a tag, and
`Derives items nodes` is a derivation of nodes from items. `assemble` is the stack machine that
`parseFrom` runs, taken apart from the lexer: it finds a derivation if there is one, there is at
most one, and there is one exactly if the heads and ends of loops are balanced.
-/

set_option autoImplicit false

namespace Stencil

/-! ## Items -/

/-- An item of a template: a text, or a tag that has been read. Items have no places and know
nothing of nesting; both are gone from what a grammar says about them. -/
inductive Item where
  | text (content : String)
  | tag (t : Tag)

/-- What a piece is read as. A text is an item as it is, and a tag has to follow the grammar of
tags. -/
inductive Piece.Reads : Piece → Item → Prop
  | text (value : List Char) : Reads (.text value) (.text (String.ofList value))
  | tag {tag : List Char} {t : Tag} (h : TagGrammar tag t) : Reads (.tag tag) (.tag t)

namespace Item

def opens : Item → Nat
  | .tag (.loop _) => 1
  | _ => 0

def closes : Item → Nat
  | .tag .close => 1
  | _ => 0

end Item

/-- No more loops end than are open, `depth` of them before the first item, and all end at last.
This is a condition on counts alone, and so says which items are a tree without building one. -/
def Balanced (depth : Nat) (items : List Item) : Prop :=
  (∀ front, front <+: items → (front.map Item.closes).sum ≤ depth + (front.map Item.opens).sum) ∧
    (items.map Item.closes).sum = depth + (items.map Item.opens).sum

/-! ## Derivations -/

/-- A derivation of nodes: a text and an echo derive themselves, and a loop derives what stands
between its head and its end. It is the grammar of templates above the tags, and says nothing of the
order in which nodes are built. -/
inductive Derives : List Item → List Node → Prop
  | nil : Derives [] []
  | text {content : String} {items : List Item} {nodes : List Node} (h : Derives items nodes) :
      Derives (.text content :: items) (.text content :: nodes)
  | echo {elements : List Element} {items : List Item} {nodes : List Node}
      (h : Derives items nodes) :
      Derives (.tag (.echo elements) :: items) (.echo elements :: nodes)
  | loop {l : Loop} {inner items : List Item} {body nodes : List Node} (hb : Derives inner body)
      (h : Derives items nodes) :
      Derives (.tag (.loop l) :: (inner ++ .tag .close :: items)) (.forLoop l body :: nodes)

namespace Node

mutual

/-- A node as items, in document order. A loop has an item in front of those of its body and one
behind them, so the list tells the whole tree. -/
def listing : Node → List Item
  | .document children => listingAll children
  | .text content => [.text content]
  | .echo elements => [.tag (.echo elements)]
  | .forLoop l body => .tag (.loop l) :: (listingAll body ++ [.tag .close])

def listingAll : List Node → List Item
  | [] => []
  | n :: ns => listing n ++ listingAll ns

end

end Node

namespace Derives

theorem append {items items' : List Item} {nodes nodes' : List Node} (h : Derives items nodes)
    (h' : Derives items' nodes') : Derives (items ++ items') (nodes ++ nodes') := by
  induction h with
  | nil => exact h'
  | text _ ih => exact .text ih
  | echo _ ih => exact .echo ih
  | loop hb _ _ ih =>
    rw [List.cons_append, List.append_assoc, List.cons_append]
    exact .loop hb ih

theorem listing_eq {items : List Item} {nodes : List Node} (h : Derives items nodes) :
    Node.listingAll nodes = items := by
  induction h with
  | nil => rfl
  | text _ ih => simp [Node.listingAll, Node.listing, ih]
  | echo _ ih => simp [Node.listingAll, Node.listing, ih]
  | loop _ _ ihb ih => simp [Node.listingAll, Node.listing, ihb, ih]

end Derives

/-! ## The stack machine -/

/-- Builds nodes from items. `outer` are the open loops, innermost first, and `nodes` the nodes so
far in the innermost one, last first. This is the stack of the parser without its lexer, so that
what is proved of it is about items only. -/
def assemble : List Item → List OpenLoop → List Node → Option (List Node)
  | [], outer, nodes => if outer.isEmpty then some nodes.reverse else none
  | .text content :: items, outer, nodes => assemble items outer (.text content :: nodes)
  | .tag (.echo elements) :: items, outer, nodes => assemble items outer (.echo elements :: nodes)
  | .tag (.loop l) :: items, outer, nodes => assemble items (⟨l, nodes⟩ :: outer) []
  | .tag .close :: items, o :: outer, nodes =>
    assemble items outer (.forLoop o.loop nodes.reverse :: o.before)
  | .tag .close :: _, [], _ => none

/-- What is derived is built, whatever was built before. The induction follows the derivation: a
loop is its head, a derivation of its body, and an end that puts it behind the nodes before it. -/
theorem assemble_append {items : List Item} {nodes : List Node} (h : Derives items nodes) :
    ∀ (rest : List Item) (outer : List OpenLoop) (before : List Node),
      assemble (items ++ rest) outer before = assemble rest outer (nodes.reverse ++ before) := by
  induction h with
  | nil => exact fun _ _ _ => rfl
  | text _ ih =>
    intro rest outer before
    rw [List.cons_append, assemble, ih]
    simp
  | echo _ ih =>
    intro rest outer before
    rw [List.cons_append, assemble, ih]
    simp
  | loop _ _ ihb ih =>
    intro rest outer before
    rw [List.cons_append, List.append_assoc, List.cons_append, assemble, ihb, assemble, ih]
    simp

/-- The items behind the machine: those of the nodes so far, and before each open loop those of the
nodes before it. It is the invariant that `assemble` keeps, and at the end it is a derivation of all
items. -/
inductive Consumed : List Item → List OpenLoop → List Node → Prop
  | base {items : List Item} {nodes : List Node} (h : Derives items nodes.reverse) :
      Consumed items [] nodes
  | inside {items inner : List Item} {o : OpenLoop} {outer : List OpenLoop} {nodes : List Node}
      (ho : Consumed items outer o.before) (h : Derives inner nodes.reverse) :
      Consumed (items ++ .tag (.loop o.loop) :: inner) (o :: outer) nodes

theorem Consumed.snoc {items item : List Item} {outer : List OpenLoop} {nodes : List Node}
    {node : Node} (h : Consumed items outer nodes) (hn : Derives item [node]) :
    Consumed (items ++ item) outer (node :: nodes) := by
  cases h with
  | base h =>
    refine .base ?_
    rw [List.reverse_cons]
    exact h.append hn
  | inside ho h =>
    rw [List.append_assoc, List.cons_append]
    refine .inside ho ?_
    rw [List.reverse_cons]
    exact h.append hn

/-- What the machine builds is derived from all its items. The induction is on the items that are
left; `Consumed` says what the open loops and the nodes in front have come from so far. -/
theorem derives_of_assemble {rest : List Item} :
    ∀ {items : List Item} {outer : List OpenLoop} {before nodes : List Node},
      Consumed items outer before → assemble rest outer before = some nodes →
        Derives (items ++ rest) nodes := by
  -- By recursion on what is left: `Consumed` holds before each item, and at the end it says that
  -- no loop is open and the nodes are derived.
  induction rest with
  | nil =>
    intro items outer before nodes hconsumed h
    cases hconsumed with
    | base hd =>
      obtain rfl : before.reverse = nodes := Option.some.inj h
      rwa [List.append_nil]
    | inside _ _ => exact absurd h (by simp [assemble])
  | cons item rest ih =>
    intro items outer before nodes hconsumed h
    rw [← List.singleton_append, ← List.append_assoc]
    cases item with
    | text content => exact ih (hconsumed.snoc (.text .nil)) h
    | tag t =>
      cases t with
      | echo elements => exact ih (hconsumed.snoc (.echo .nil)) h
      | loop l =>
        let o : OpenLoop := ⟨l, before⟩
        have hinside : Consumed (items ++ [.tag (.loop o.loop)]) (o :: outer) [] :=
          .inside hconsumed .nil
        exact ih hinside h
      | close =>
        cases hconsumed with
        | base _ => exact absurd h (by simp [assemble])
        | inside ho hd =>
          -- The innermost loop is complete, and joins the nodes that stand before it.
          have hsnoc := ih (ho.snoc (.loop hd .nil)) h
          simpa using hsnoc

theorem assemble_eq_some_iff {items : List Item} {nodes : List Node} :
    assemble items [] [] = some nodes ↔ Derives items nodes := by
  constructor
  · intro h
    have hstart : Consumed [] [] [] := .base .nil
    exact derives_of_assemble hstart h
  · intro h
    have hbuilt := assemble_append h [] [] []
    rw [List.append_nil, List.append_nil] at hbuilt
    simpa [assemble] using hbuilt

theorem Derives.unique {items : List Item} {nodes nodes' : List Node} (h : Derives items nodes)
    (h' : Derives items nodes') : nodes = nodes' := by
  rw [← assemble_eq_some_iff] at h h'
  rw [h] at h'
  exact Option.some.inj h'

/-! ## Balance -/

theorem balanced_cons_iff {depth : Nat} {item : Item} {items : List Item} :
    Balanced depth (item :: items) ↔
      item.closes ≤ depth + item.opens ∧ Balanced (depth + item.opens - item.closes) items := by
  unfold Balanced
  constructor
  · rintro ⟨hfront, hall⟩
    have hfirst := hfront [item] ⟨items, rfl⟩
    simp only [List.map_cons, List.map_nil, List.sum_cons, List.sum_nil] at hfirst hall
    refine ⟨by omega, fun front hpre => ?_, by omega⟩
    have hlonger := hfront (item :: front) (List.cons_prefix_cons.2 ⟨rfl, hpre⟩)
    simp only [List.map_cons, List.sum_cons] at hlonger
    omega
  · rintro ⟨hfirst, hfront, hall⟩
    refine ⟨fun front hpre => ?_, ?_⟩
    · rcases List.prefix_cons_iff.1 hpre with rfl | ⟨tail, rfl, htail⟩
      · simp
      · have hshorter := hfront tail htail
        simp only [List.map_cons, List.sum_cons]
        omega
    · simp only [List.map_cons, List.sum_cons]
      omega

/-- The machine gets to the end exactly if the loops are balanced. Only the number of open loops
decides that, and what they hold does not. -/
theorem isSome_assemble_iff (items : List Item) :
    ∀ (outer : List OpenLoop) (nodes : List Node),
      (assemble items outer nodes).isSome ↔ Balanced outer.length items := by
  induction items with
  | nil =>
    intro outer nodes
    cases outer <;> simp [assemble, Balanced]
  | cons item items ih =>
    intro outer nodes
    rw [balanced_cons_iff]
    cases item with
    | text content => simpa [assemble, Item.closes, Item.opens] using ih _ _
    | tag t =>
      cases t with
      | echo elements => simpa [assemble, Item.closes, Item.opens] using ih _ _
      | loop l => simpa [assemble, Item.closes, Item.opens] using ih (⟨l, nodes⟩ :: outer) []
      | close =>
        cases outer with
        | nil => simp [assemble, Item.closes, Item.opens]
        | cons o outer => simpa [assemble, Item.closes, Item.opens] using ih outer _

theorem exists_derives_iff {items : List Item} :
    (∃ nodes, Derives items nodes) ↔ Balanced 0 items := by
  have hsome := isSome_assemble_iff items [] []
  rw [Option.isSome_iff_exists] at hsome
  simpa [assemble_eq_some_iff] using hsome

/-! ## Reading a template -/

section

variable {l l' : Lexer} {value : String} {place : Place}

theorem parseFrom_of_error {e : LexError} (h : l.next = (.error e, l')) (outer : List OpenLoop)
    (nodes : List Node) : parseFrom l outer nodes = (.error (.lexical e), l') := by
  rw [parseFrom]
  split <;> simp_all

theorem parseFrom_of_finish (h : l.next = (.ok ⟨.finish, value, place⟩, l'))
    (outer : List OpenLoop) (nodes : List Node) :
    parseFrom l outer nodes = if outer.isEmpty then (.ok nodes.reverse, l')
      else (.error (.structural (.unclosedLoops outer.length) place), l') := by
  rw [parseFrom]
  split <;> simp_all

theorem parseFrom_of_text (h : l.next = (.ok ⟨.text, value, place⟩, l'))
    (outer : List OpenLoop) (nodes : List Node) :
    parseFrom l outer nodes = parseFrom l' outer (.text value :: nodes) := by
  rw [parseFrom]
  split <;> simp_all

theorem parseFrom_of_tag (h : l.next = (.ok ⟨.tag, value, place⟩, l')) (outer : List OpenLoop)
    (nodes : List Node) :
    parseFrom l outer nodes = match Tag.ofChars value.toList, outer with
      | .error fault, _ => (.error (.structural (.tag fault) place), l')
      | .ok (.echo elements), _ => parseFrom l' outer (.echo elements :: nodes)
      | .ok (.loop loop), _ => parseFrom l' (⟨loop, nodes⟩ :: outer) []
      | .ok .close, o :: outer => parseFrom l' outer (.forLoop o.loop nodes.reverse :: o.before)
      | .ok .close, [] => (.error (.structural .unmatchedEnd place), l') := by
  rw [parseFrom]
  split
  · simp_all
  · simp_all
  · simp_all
  · rename_i heq
    rw [h] at heq
    cases heq
    cases Tag.ofChars value.toList with
    | error fault => rfl
    | ok t =>
      cases t with
      | close => cases outer <;> rfl
      | echo elements => rfl
      | loop l => rfl

end

def Listed (tokens : List Token) (items : List Item) : Prop :=
  List.Forall₂ Piece.Reads (tokens.filterMap Token.piece?) items

/-- The items that are ahead of a lexer, if it can read on to the end and each tag on the way
follows its grammar. Otherwise there are none. -/
def Lexer.Ahead (l : Lexer) (items : List Item) : Prop :=
  ∃ tokens, l.tokenize.1 = .ok tokens ∧ Listed tokens items

section

variable {l l' : Lexer} {token : Token} {items : List Item}

theorem not_ahead_of_error {e : LexError} (h : l.next = (.error e, l')) : ¬ l.Ahead items := by
  rintro ⟨tokens, htokens, -⟩
  rw [Lexer.tokenize_of_error h] at htokens
  exact absurd htokens (by simp)

theorem ahead_of_finish (h : l.next = (.ok token, l')) (hk : token.kind = .finish) :
    l.Ahead items ↔ items = [] := by
  have hpiece : token.piece? = none := by simp [Token.piece?, hk]
  unfold Lexer.Ahead
  rw [Lexer.tokenize_of_finish h hk]
  simp [Listed, hpiece]

theorem ahead_of_next {piece : Piece} (h : l.next = (.ok token, l')) (hk : token.kind ≠ .finish)
    (hp : token.piece? = some piece) :
    l.Ahead items ↔ ∃ item rest, piece.Reads item ∧ l'.Ahead rest ∧ items = item :: rest := by
  unfold Lexer.Ahead
  rw [Lexer.tokenize_of_next h hk]
  constructor
  · rintro ⟨tokens, htokens, hlisted⟩
    obtain ⟨rest, hrest, rfl⟩ := map_eq_ok_iff.1 htokens
    rw [Listed, List.filterMap_cons_some hp, List.forall₂_cons_left_iff] at hlisted
    obtain ⟨item, others, hitem, hothers, rfl⟩ := hlisted
    exact ⟨item, others, hitem, ⟨rest, hrest, hothers⟩, rfl⟩
  · rintro ⟨item, others, hitem, ⟨rest, hrest, hothers⟩, rfl⟩
    refine ⟨token :: rest, by rw [hrest]; rfl, ?_⟩
    rw [Listed, List.filterMap_cons_some hp]
    exact .cons hitem hothers

end

/-- Reading is the lexer, the grammar of tags and the stack machine, one after the other: the nodes
are built from the items ahead. -/
theorem parseFrom_eq_ok_iff (l : Lexer) :
    ∀ {outer : List OpenLoop} {before nodes : List Node},
      (parseFrom l outer before).1 = .ok nodes ↔
        ∃ items, l.Ahead items ∧ assemble items outer before = some nodes := by
  -- Token by token. The machine and the reader do the same with each item, and both stop at a tag
  -- that is none of the grammar, where nothing is ahead.
  induction l using Lexer.induction with
  | step l ih =>
    intro outer before nodes
    cases hnext : l.next with
    | mk r l' =>
    cases r with
    | error e =>
      rw [parseFrom_of_error hnext]
      refine ⟨fun h => absurd h (by simp), ?_⟩
      rintro ⟨items, hahead, -⟩
      exact absurd hahead (not_ahead_of_error hnext)
    | ok token =>
    obtain ⟨kind, value, place⟩ := token
    cases kind with
    | finish =>
      rw [parseFrom_of_finish hnext]
      simp only [ahead_of_finish hnext rfl, exists_eq_left, assemble]
      split <;> simp
    | text =>
      rw [parseFrom_of_text hnext, ih _ l' hnext (by simp)]
      simp only [ahead_of_next hnext (by simp) rfl]
      constructor
      · rintro ⟨items, hahead, h⟩
        refine ⟨.text value :: items, ⟨_, items, .text _, hahead, ?_⟩, h⟩
        rw [String.ofList_toList]
      · rintro ⟨_, ⟨_, items, hitem, hahead, rfl⟩, h⟩
        cases hitem
        rw [String.ofList_toList] at h
        exact ⟨items, hahead, h⟩
    | tag =>
      rw [parseFrom_of_tag hnext]
      simp only [ahead_of_next hnext (by simp) rfl]
      cases htag : Tag.ofChars value.toList with
      | error fault =>
        refine ⟨fun h => absurd h (by simp), ?_⟩
        rintro ⟨_, ⟨_, items, hitem, -, rfl⟩, -⟩
        cases hitem with
        | tag hgrammar =>
          rw [Tag.ofChars_eq_ok_iff.2 hgrammar] at htag
          exact absurd htag (by simp)
      | ok t =>
        -- A tag is read in one way, so it is this tag that the machine gets.
        have hgrammar := Tag.ofChars_eq_ok_iff.1 htag
        have hfirst : (∃ items, (∃ item rest, (Piece.tag value.toList).Reads item ∧ l'.Ahead rest ∧
            items = item :: rest) ∧ assemble items outer before = some nodes) ↔
            ∃ rest, l'.Ahead rest ∧ assemble (.tag t :: rest) outer before = some nodes := by
          constructor
          · rintro ⟨_, ⟨_, items, hitem, hahead, rfl⟩, h⟩
            cases hitem with
            | tag hgrammar' =>
              rw [hgrammar'.unique hgrammar] at h
              exact ⟨items, hahead, h⟩
          · rintro ⟨items, hahead, h⟩
            exact ⟨_, ⟨_, items, .tag hgrammar, hahead, rfl⟩, h⟩
        rw [hfirst]
        cases t with
        | echo elements => exact ih _ l' hnext (by simp)
        | loop l => exact ih _ l' hnext (by simp)
        | close =>
          cases outer with
          | nil => simp [assemble]
          | cons o outer => exact ih _ l' hnext (by simp)

theorem Piece.Reads.unique {piece : Piece} {item item' : Item} (h : piece.Reads item)
    (h' : piece.Reads item') : item = item' := by
  cases h with
  | text value =>
    cases h'
    rfl
  | tag ht =>
    cases h' with
    | tag ht' => rw [ht.unique ht']

theorem Listed.unique {tokens : List Token} {items items' : List Item} (h : Listed tokens items)
    (h' : Listed tokens items') : items = items' :=
  List.right_unique_forall₂' (fun _ _ _ hi hi' => hi.unique hi') h h'

/-- Tokens are read as items exactly if every tag among them follows the grammar of tags. A text has
no grammar to follow here, as the lexer has taken its escapes away already. -/
theorem exists_listed_iff {tokens : List Token} :
    (∃ items, Listed tokens items) ↔
      ∀ token ∈ tokens, token.kind = .tag → ∃ tag, TagGrammar token.value.toList tag := by
  induction tokens with
  | nil => exact ⟨fun _ _ hmem => absurd hmem (by simp), fun _ => ⟨[], .nil⟩⟩
  | cons token tokens ih =>
    obtain ⟨kind, value, place⟩ := token
    rw [List.forall_mem_cons, ← ih]
    unfold Listed
    cases kind with
    | finish =>
      rw [List.filterMap_cons_none (by rfl)]
      simp
    | text =>
      rw [List.filterMap_cons_some (by rfl)]
      constructor
      · rintro ⟨_, h⟩
        obtain ⟨_, items, -, hitems, rfl⟩ := List.forall₂_cons_left_iff.1 h
        exact ⟨fun hk => absurd hk (by simp), items, hitems⟩
      · rintro ⟨-, items, hitems⟩
        exact ⟨_, .cons (.text _) hitems⟩
    | tag =>
      rw [List.filterMap_cons_some (by rfl)]
      constructor
      · rintro ⟨_, h⟩
        obtain ⟨_, items, hitem, hitems, rfl⟩ := List.forall₂_cons_left_iff.1 h
        cases hitem with
        | tag ht => exact ⟨fun _ => ⟨_, ht⟩, items, hitems⟩
      · rintro ⟨htag, items, hitems⟩
        obtain ⟨tag, ht⟩ := htag rfl
        exact ⟨_, .cons (.tag ht) hitems⟩

/-- What is read from a template is derived from its items. Three steps that can each refuse it
become three conditions: the text has tokens, they are read as items, and the items derive the
children of the document. -/
theorem parse_eq_ok_iff {s : String} {t : Node} :
    parse s = .ok t ↔ ∃ tokens items nodes, tokenize s = .ok tokens ∧ Listed tokens items ∧
      Derives items nodes ∧ t = .document nodes := by
  have hparse : parse s = .ok t ↔
      ∃ nodes, (parseFrom (Lexer.ofText s) [] []).1 = .ok nodes ∧ t = .document nodes := by
    rw [parse, map_eq_ok_iff]
    simp only [eq_comm]
  rw [hparse]
  constructor
  · rintro ⟨nodes, h, rfl⟩
    obtain ⟨items, ⟨tokens, htokens, hlisted⟩, hbuilt⟩ := (parseFrom_eq_ok_iff _).1 h
    exact ⟨tokens, items, nodes, htokens, hlisted, assemble_eq_some_iff.1 hbuilt, rfl⟩
  · rintro ⟨tokens, items, nodes, htokens, hlisted, hderives, rfl⟩
    exact ⟨nodes, (parseFrom_eq_ok_iff _).2
      ⟨items, ⟨tokens, htokens, hlisted⟩, assemble_eq_some_iff.2 hderives⟩, rfl⟩

/-- A template is read exactly if it falls into tokens, every tag follows the grammar of tags, and
the loops are balanced. What is read lists the items of the tokens in their order, and it is the
only derivation that the tokens have. -/
theorem parse_grammar (s : String) :
    ((∃ t, parse s = .ok t) ↔ ∃ tokens, tokenize s = .ok tokens ∧
      (∀ token ∈ tokens, token.kind = .tag → ∃ tag, TagGrammar token.value.toList tag) ∧
      ∀ items, Listed tokens items → Balanced 0 items) ∧
    ∀ t, parse s = .ok t → ∃ tokens items nodes, tokenize s = .ok tokens ∧ Listed tokens items ∧
      t = .document nodes ∧ t.listing = items ∧ Derives items nodes ∧
      ∀ items' nodes', Listed tokens items' → Derives items' nodes' →
        items' = items ∧ nodes' = nodes := by
  refine ⟨⟨?_, ?_⟩, ?_⟩
  · rintro ⟨t, h⟩
    obtain ⟨tokens, items, nodes, htokens, hlisted, hderives, -⟩ := parse_eq_ok_iff.1 h
    refine ⟨tokens, htokens, exists_listed_iff.1 ⟨items, hlisted⟩, fun items' hlisted' => ?_⟩
    rw [hlisted'.unique hlisted]
    exact exists_derives_iff.1 ⟨nodes, hderives⟩
  · rintro ⟨tokens, htokens, htags, hbalanced⟩
    obtain ⟨items, hlisted⟩ := exists_listed_iff.2 htags
    obtain ⟨nodes, hderives⟩ := exists_derives_iff.2 (hbalanced items hlisted)
    exact ⟨_, parse_eq_ok_iff.2 ⟨tokens, items, nodes, htokens, hlisted, hderives, rfl⟩⟩
  · intro t h
    obtain ⟨tokens, items, nodes, htokens, hlisted, hderives, rfl⟩ := parse_eq_ok_iff.1 h
    refine ⟨tokens, items, nodes, htokens, hlisted, rfl, hderives.listing_eq, hderives, ?_⟩
    intro items' nodes' hlisted' hderives'
    obtain rfl := hlisted'.unique hlisted
    exact ⟨rfl, hderives'.unique hderives⟩

end Stencil
