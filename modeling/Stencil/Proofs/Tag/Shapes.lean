import Mathlib.Data.List.Forall2
import Stencil.Proofs.Steps
import Stencil.Proofs.Tag.Elements
import Stencil.Tag

/-!
# The grammar of tags

`TagForm tag shape` writes the three shapes of a tag out as sequences of characters: where blanks
may stand, how the two words are spelled and where the body ends. `TagGrammar tag t` adds what the
body must hold. Reading a tag follows both, step by step: `TagShape.ofChars?_eq_some_iff` and
`Tag.ofChars_eq_ok_iff`.
-/

set_option autoImplicit false

namespace Stencil

/-! ## Shapes -/

/-- Blanks, perhaps none. -/
def IsBlanks (cs : List Char) : Prop := ∀ c ∈ cs, isBlank c = true

def Opens (tag inside : List Char) : Prop :=
  ∃ a b, IsBlanks a ∧ IsBlanks b ∧ tag = '{' :: (a ++ '$' :: (b ++ inside))

def Closes (inside body : List Char) : Prop :=
  ∃ a, IsBlanks a ∧ inside = body ++ '$' :: (a ++ ['}'])

/-- A word in letters of any case. Only the letters of ASCII have a capital here, and no other one's
capital would be among those of the two words. -/
def Spelled (word cs : List Char) : Prop := cs.map Char.toUpper = word

/-- The three shapes of a tag. A body ends at the last dollar sign, since only blanks and the brace
follow that; the body of a loop does not go on with the letters of the word before it. -/
inductive TagForm : List Char → TagShape → Prop
  | close {tag word inside blanks : List Char} (ho : Opens tag (word ++ inside))
      (hw : Spelled ['E', 'N', 'D'] word) (hc : Closes inside blanks) (hb : IsBlanks blanks) :
      TagForm tag .close
  | echo {tag inside body : List Char} (ho : Opens tag ('=' :: inside)) (hc : Closes inside body) :
      TagForm tag (.echo body)
  | loop {tag word inside body : List Char} (ho : Opens tag (word ++ inside))
      (hw : Spelled ['F', 'O', 'R'] word) (hc : Closes inside body)
      (hb : body.head?.all isBlank) : TagForm tag (.loop body)

/-! ## Reading a shape -/

theorem IsBlanks.of_takeWhile (cs : List Char) : IsBlanks (cs.takeWhile isBlank) :=
  fun _ hmem => List.mem_takeWhile_imp hmem

theorem IsBlanks.reverse {cs : List Char} (h : IsBlanks cs) : IsBlanks cs.reverse :=
  fun c hmem => h c (List.mem_reverse.1 hmem)

theorem toUpper_of_isBlank {c : Char} (h : isBlank c = true) : c.toUpper = c := by
  have hrange : ¬ (97 ≤ c.toNat ∧ c.toNat ≤ 122) := by
    simp only [isBlank, isSpace, Bool.or_eq_true, Bool.and_eq_true, beq_iff_eq,
      decide_eq_true_eq] at h
    omega
  unfold Char.toUpper
  rw [dif_neg]
  rintro ⟨hlow, hhigh⟩
  exact hrange ⟨UInt32.le_iff_toNat_le.1 hlow, UInt32.le_iff_toNat_le.1 hhigh⟩

namespace TagShape

theorem inside?_eq_some_iff {tag cs : List Char} :
    inside? tag = some cs ↔ Opens tag cs ∧ cs.head?.all (!isBlank ·) := by
  constructor
  · intro h
    unfold inside? at h
    split at h
    · rename_i front
      split at h
      · rename_i rest hrest
        obtain rfl := Option.some.inj h
        refine ⟨⟨front.takeWhile isBlank, rest.takeWhile isBlank,
          .of_takeWhile _, .of_takeWhile _, ?_⟩, head?_dropWhile isBlank rest⟩
        rw [List.takeWhile_append_dropWhile, ← hrest, List.takeWhile_append_dropWhile]
      · exact absurd h (by simp)
    · exact absurd h (by simp)
  · rintro ⟨⟨a, b, ha, hb, rfl⟩, hhead⟩
    have hdollar : (a ++ '$' :: (b ++ cs)).dropWhile isBlank = '$' :: (b ++ cs) :=
      dropWhile_span ha rfl
    simp only [inside?, hdollar, dropWhile_span hb hhead]

theorem body?_eq_some_iff {inside body : List Char} :
    body? inside = some body ↔ Closes inside body := by
  constructor
  · intro h
    unfold body? at h
    split at h
    · rename_i rest hrest
      split at h
      · rename_i back hback
        obtain rfl := Option.some.inj h
        have hsplit := List.takeWhile_append_dropWhile (p := isBlank) (l := rest)
        rw [hback] at hsplit
        refine ⟨(rest.takeWhile isBlank).reverse, (IsBlanks.of_takeWhile rest).reverse, ?_⟩
        have hinside := congrArg List.reverse hrest
        rw [List.reverse_reverse, ← hsplit] at hinside
        simpa using hinside
      · exact absurd h (by simp)
    · exact absurd h (by simp)
  · rintro ⟨a, ha, rfl⟩
    have hback : (body ++ '$' :: (a ++ ['}'])).reverse =
        '}' :: (a.reverse ++ '$' :: body.reverse) := by simp
    have hdollar : (a.reverse ++ '$' :: body.reverse).dropWhile isBlank = '$' :: body.reverse :=
      dropWhile_span ha.reverse rfl
    simp [body?, hback, hdollar]

theorem afterWord?_eq_some_iff {word : List Char} :
    ∀ {cs rest : List Char}, afterWord? word cs = some rest ↔
      ∃ spelled, Spelled word spelled ∧ cs = spelled ++ rest := by
  induction word with
  | nil =>
    intro cs rest
    simp [afterWord?, Spelled]
  | cons w ws ih =>
    intro cs rest
    constructor
    · intro h
      cases cs with
      | nil => exact absurd h (by simp [afterWord?])
      | cons c cs =>
        rw [afterWord?] at h
        split at h
        · rename_i hc
          obtain ⟨spelled, hspelled, rfl⟩ := ih.1 h
          exact ⟨c :: spelled, by rw [Spelled, List.map_cons, hc, hspelled], rfl⟩
        · exact absurd h (by simp)
    · rintro ⟨spelled, hspelled, rfl⟩
      cases spelled with
      | nil => exact absurd hspelled (by simp [Spelled])
      | cons c spelled =>
        obtain ⟨hc, htail⟩ := List.cons.inj hspelled
        rw [List.cons_append, afterWord?, if_pos hc]
        exact ih.2 ⟨spelled, htail, rfl⟩

theorem afterWord?_append {word spelled : List Char} (h : Spelled word spelled)
    (rest : List Char) : afterWord? word (spelled ++ rest) = some rest :=
  afterWord?_eq_some_iff.2 ⟨spelled, h, rfl⟩

theorem head_of_spelled {w : Char} {ws spelled : List Char} (h : Spelled (w :: ws) spelled) :
    ∃ c tail, spelled = c :: tail ∧ c.toUpper = w := by
  cases spelled with
  | nil => exact absurd h (by simp [Spelled])
  | cons c tail => exact ⟨c, tail, rfl, (List.cons.inj h).1⟩

theorem head_of_spelled_not_isBlank {w : Char} {ws spelled rest : List Char}
    (h : Spelled (w :: ws) spelled) (hw : isBlank w = false) :
    (spelled ++ rest).head?.all (!isBlank ·) := by
  obtain ⟨c, tail, rfl, hc⟩ := head_of_spelled h
  cases hb : isBlank c with
  | false => simp [hb]
  | true =>
    -- A blank is its own capital.
    rw [toUpper_of_isBlank hb] at hc
    rw [hc, hw] at hb
    exact absurd hb (by simp)

theorem afterWord?_eq_none {v w : Char} {vs ws spelled rest : List Char}
    (h : Spelled (w :: ws) spelled) (hne : w ≠ v) :
    afterWord? (v :: vs) (spelled ++ rest) = none := by
  obtain ⟨c, tail, rfl, hc⟩ := head_of_spelled h
  rw [List.cons_append, afterWord?, if_neg (hc ▸ hne)]

theorem close?_eq_some_iff {cs : List Char} {shape : TagShape} :
    close? cs = some shape ↔ shape = .close ∧ ∃ word inside blanks, cs = word ++ inside ∧
      Spelled ['E', 'N', 'D'] word ∧ Closes inside blanks ∧ IsBlanks blanks := by
  have hall : ∀ {blanks : List Char}, blanks.all isBlank = true ↔ IsBlanks blanks :=
    List.all_eq_true
  constructor
  · intro h
    obtain ⟨inside, hinside, hrest⟩ := Option.bind_eq_some_iff.1 h
    obtain ⟨body, hbody, hshape⟩ := Option.bind_eq_some_iff.1 hrest
    obtain ⟨word, hword, rfl⟩ := afterWord?_eq_some_iff.1 hinside
    split at hshape
    · rename_i hblanks
      obtain rfl := Option.some.inj hshape
      exact ⟨rfl, word, inside, body, rfl, hword, body?_eq_some_iff.1 hbody, hall.1 hblanks⟩
    · exact absurd hshape (by simp)
  · rintro ⟨rfl, word, inside, blanks, rfl, hword, hclose, hblanks⟩
    simp only [close?, afterWord?_append hword, body?_eq_some_iff.2 hclose, hall.2 hblanks,
      Option.bind_eq_bind, Option.bind_some, if_true]

theorem loop?_eq_some_iff {cs : List Char} {shape : TagShape} :
    loop? cs = some shape ↔ ∃ word inside body, shape = .loop body ∧ cs = word ++ inside ∧
      Spelled ['F', 'O', 'R'] word ∧ Closes inside body ∧ body.head?.all isBlank := by
  constructor
  · intro h
    obtain ⟨inside, hinside, hrest⟩ := Option.bind_eq_some_iff.1 h
    obtain ⟨body, hbody, hshape⟩ := Option.bind_eq_some_iff.1 hrest
    obtain ⟨word, hword, rfl⟩ := afterWord?_eq_some_iff.1 hinside
    split at hshape
    · rename_i hhead
      obtain rfl := Option.some.inj hshape
      exact ⟨word, inside, body, rfl, rfl, hword, body?_eq_some_iff.1 hbody, hhead⟩
    · exact absurd hshape (by simp)
  · rintro ⟨word, inside, body, rfl, rfl, hword, hclose, hhead⟩
    simp [loop?, afterWord?_append hword, body?_eq_some_iff.2 hclose, hhead]

theorem echo?_eq_some_iff {cs : List Char} {shape : TagShape} :
    echo? cs = some shape ↔ ∃ inside body, shape = .echo body ∧ cs = '=' :: inside ∧
      Closes inside body := by
  constructor
  · intro h
    unfold echo? at h
    split at h
    · rename_i inside
      obtain ⟨body, hbody, rfl⟩ := Option.map_eq_some_iff.1 h
      exact ⟨inside, body, rfl, rfl, body?_eq_some_iff.1 hbody⟩
    · exact absurd h (by simp)
  · rintro ⟨inside, body, rfl, rfl, hclose⟩
    simp [echo?, body?_eq_some_iff.2 hclose]

/-- The shapes that are read are the three of the grammar. They are tried one after another, and the
order does not matter, since a tag begins with at most one of the three words. -/
theorem ofChars?_eq_some_iff {tag : List Char} {shape : TagShape} :
    ofChars? tag = some shape ↔ TagForm tag shape := by
  constructor
  · intro h
    obtain ⟨cs, hcs, h⟩ := Option.bind_eq_some_iff.1 h
    obtain ⟨hopen, -⟩ := inside?_eq_some_iff.1 hcs
    rcases Option.or_eq_some_iff.1 h with h | ⟨-, h⟩
    · obtain ⟨rfl, word, inside, blanks, rfl, hword, hclose, hblanks⟩ := close?_eq_some_iff.1 h
      exact .close hopen hword hclose hblanks
    rcases Option.or_eq_some_iff.1 h with h | ⟨-, h⟩
    · obtain ⟨inside, body, rfl, rfl, hclose⟩ := echo?_eq_some_iff.1 h
      exact .echo hopen hclose
    · obtain ⟨word, inside, body, rfl, rfl, hword, hclose, hhead⟩ := loop?_eq_some_iff.1 h
      exact .loop hopen hword hclose hhead
  · intro h
    -- The three shapes are told apart by the first character behind the dollar sign, so those that
    -- are tried before the right one fail.
    cases h with
    | close ho hw hc hb =>
      have hinside := inside?_eq_some_iff.2 ⟨ho, head_of_spelled_not_isBlank hw (by decide)⟩
      have hclose := close?_eq_some_iff.2 ⟨rfl, _, _, _, rfl, hw, hc, hb⟩
      simp [ofChars?, hinside, hclose]
    | echo ho hc =>
      rename_i inside body
      have hinside := inside?_eq_some_iff.2 ⟨ho, rfl⟩
      have hclose : close? ('=' :: inside) = none := rfl
      have hecho := echo?_eq_some_iff.2 ⟨_, _, rfl, rfl, hc⟩
      simp [ofChars?, hinside, hclose, hecho]
    | loop ho hw hc hb =>
      rename_i word inside body
      have hinside := inside?_eq_some_iff.2 ⟨ho, head_of_spelled_not_isBlank hw (by decide)⟩
      have hclose : close? (word ++ inside) = none := by
        rw [close?, afterWord?_eq_none hw (by decide)]
        rfl
      have hecho : echo? (word ++ inside) = none := by
        obtain ⟨c, tail, rfl, hf⟩ := head_of_spelled hw
        unfold echo?
        split
        · rename_i heq
          obtain ⟨rfl, -⟩ := List.cons.inj heq
          exact absurd hf (by decide)
        · rfl
      have hloop := loop?_eq_some_iff.2 ⟨_, _, _, rfl, rfl, hw, hc, hb⟩
      simp [ofChars?, hinside, hclose, hecho, hloop]

end TagShape

theorem TagForm.unique {tag : List Char} {shape shape' : TagShape} (h : TagForm tag shape)
    (h' : TagForm tag shape') : shape = shape' := by
  rw [← TagShape.ofChars?_eq_some_iff] at h h'
  rw [h] at h'
  exact Option.some.inj h'

/-! ## Tags -/

/-- A tag and what it is: an end, an echo of one element or more, or a loop with a variable, two
bounds and perhaps a step. The rules are those of the documentation, each with its own pattern, and
mention neither an order of attempts nor a fault. -/
inductive TagGrammar : List Char → Tag → Prop
  | close {tag : List Char} (h : TagForm tag .close) : TagGrammar tag .close
  | echo {tag body : List Char} {words : List (List Char)} {elements : List Element}
      (h : TagForm tag (.echo body)) (hw : Words body words) (hne : words ≠ [])
      (he : List.Forall₂ WordForm words elements) : TagGrammar tag (.echo elements)
  | loop {tag body name : List Char} {bounds : List (List Char)} {start stop : Int}
      {step : Option Int} (h : TagForm tag (.loop body)) (hw : Words body (name :: bounds))
      (hn : IsIdentifier name)
      (hb : List.Forall₂ IntegerForm bounds (start :: stop :: step.toList)) :
      TagGrammar tag (.loop ⟨String.ofList name, start, stop, step⟩)

namespace Tag

theorem mapM_ofWord_eq_ok_iff {words : List (List Char)} :
    ∀ {elements : List Element}, (∀ word ∈ words, IsWord word) →
      (words.mapM Element.ofWord = .ok elements ↔ List.Forall₂ WordForm words elements) := by
  induction words with
  | nil =>
    intro elements _
    rw [List.mapM_nil, List.forall₂_nil_left_iff]
    exact ⟨fun h => (Except.ok.inj h).symm, fun h => h ▸ rfl⟩
  | cons word words ih =>
    intro elements hwords
    have hword := hwords word List.mem_cons_self
    have htail : ∀ w ∈ words, IsWord w := fun w hmem => hwords w (List.mem_cons_of_mem _ hmem)
    rw [List.mapM_cons, bind_eq_ok_iff, List.forall₂_cons_left_iff]
    constructor
    · rintro ⟨e, he, hrest⟩
      obtain ⟨rest, hes, heq⟩ := bind_eq_ok_iff.1 hrest
      have hread := (Element.ofWord_eq_ok_iff hword).1 he
      exact ⟨e, rest, hread, (ih htail).1 hes, (Except.ok.inj heq).symm⟩
    · rintro ⟨e, rest, he, hes, rfl⟩
      have hread := (Element.ofWord_eq_ok_iff hword).2 he
      exact ⟨e, hread, bind_eq_ok_iff.2 ⟨rest, (ih htail).2 hes, rfl⟩⟩

theorem echoElements_eq_ok_iff {body : List Char} {elements : List Element} :
    echoElements body = .ok elements ↔
      ∃ words, Words body words ∧ words ≠ [] ∧ List.Forall₂ WordForm words elements := by
  unfold echoElements
  rw [bind_eq_ok_iff]
  constructor
  · rintro ⟨words, hsplit, h⟩
    have hwords := splitBody_eq_ok_iff.1 hsplit
    obtain ⟨es, hes, h⟩ := bind_eq_ok_iff.1 h
    have hforms := (mapM_ofWord_eq_ok_iff hwords.isWord).1 hes
    split at h
    · exact absurd h (by simp)
    · rename_i hne
      obtain rfl := Except.ok.inj h
      refine ⟨words, hwords, ?_, hforms⟩
      rintro rfl
      obtain rfl := List.forall₂_nil_left_iff.1 hforms
      exact hne rfl
  · rintro ⟨words, hwords, hne, hforms⟩
    refine ⟨words, splitBody_eq_ok_iff.2 hwords, bind_eq_ok_iff.2 ⟨elements, ?_, ?_⟩⟩
    · exact (mapM_ofWord_eq_ok_iff hwords.isWord).2 hforms
    · rw [if_neg]
      cases hforms with
      | nil => exact absurd rfl hne
      | cons _ _ => simp

theorem loopVariable_eq_ok_iff {word : List Char} {name : String} (hword : IsWord word) :
    loopVariable word = .ok name ↔ IsIdentifier word ∧ String.ofList word = name := by
  unfold loopVariable
  rw [bind_eq_ok_iff]
  constructor
  · rintro ⟨e, he, h⟩
    have hform := (Element.ofWord_eq_ok_iff hword).1 he
    cases hform with
    | identifier hname => exact ⟨hname, Except.ok.inj h⟩
    | function _ => exact absurd h (by simp)
    | operator _ => exact absurd h (by simp)
    | string _ => exact absurd h (by simp)
    | integer _ => exact absurd h (by simp)
    | double _ _ => exact absurd h (by simp)
  · rintro ⟨hname, rfl⟩
    exact ⟨_, (Element.ofWord_eq_ok_iff hword).2 (.identifier hname), rfl⟩

theorem loopBound_eq_ok_iff {word : List Char} {n : Int} (hword : IsWord word) :
    loopBound word = .ok n ↔ IntegerForm word n := by
  unfold loopBound
  rw [bind_eq_ok_iff]
  constructor
  · rintro ⟨e, he, h⟩
    have hform := (Element.ofWord_eq_ok_iff hword).1 he
    cases hform with
    | integer hn =>
      obtain rfl := Except.ok.inj h
      exact hn
    | identifier _ => exact absurd h (by simp)
    | function _ => exact absurd h (by simp)
    | operator _ => exact absurd h (by simp)
    | string _ => exact absurd h (by simp)
    | double _ _ => exact absurd h (by simp)
  · intro hn
    exact ⟨_, (Element.ofWord_eq_ok_iff hword).2 (.integer hn), rfl⟩

theorem loopHead_eq_ok_iff {body : List Char} {l : Loop} :
    loopHead body = .ok l ↔ ∃ name bounds, Words body (name :: bounds) ∧ IsIdentifier name ∧
      String.ofList name = l.name ∧
      List.Forall₂ IntegerForm bounds (l.start :: l.stop :: l.step.toList) := by
  unfold loopHead
  rw [bind_eq_ok_iff]
  constructor
  · rintro ⟨words, hsplit, h⟩
    have hwords := splitBody_eq_ok_iff.1 hsplit
    have hword := hwords.isWord
    -- Three words or four; each of them is then read by itself.
    split at h
    · rename_i name start stop
      obtain ⟨name', hname, h⟩ := bind_eq_ok_iff.1 h
      obtain ⟨start', hstart, h⟩ := bind_eq_ok_iff.1 h
      obtain ⟨stop', hstop, h⟩ := bind_eq_ok_iff.1 h
      obtain rfl := Except.ok.inj h
      obtain ⟨hid, hname⟩ := (loopVariable_eq_ok_iff (hword name (by simp))).1 hname
      refine ⟨name, _, hwords, hid, hname, ?_⟩
      exact .cons ((loopBound_eq_ok_iff (hword start (by simp))).1 hstart)
        (.cons ((loopBound_eq_ok_iff (hword stop (by simp))).1 hstop) .nil)
    · rename_i name start stop step
      obtain ⟨name', hname, h⟩ := bind_eq_ok_iff.1 h
      obtain ⟨start', hstart, h⟩ := bind_eq_ok_iff.1 h
      obtain ⟨stop', hstop, h⟩ := bind_eq_ok_iff.1 h
      obtain ⟨step', hstep, h⟩ := bind_eq_ok_iff.1 h
      obtain rfl := Except.ok.inj h
      obtain ⟨hid, hname⟩ := (loopVariable_eq_ok_iff (hword name (by simp))).1 hname
      refine ⟨name, _, hwords, hid, hname, ?_⟩
      exact .cons ((loopBound_eq_ok_iff (hword start (by simp))).1 hstart)
        (.cons ((loopBound_eq_ok_iff (hword stop (by simp))).1 hstop)
          (.cons ((loopBound_eq_ok_iff (hword step (by simp))).1 hstep) .nil))
    · exact absurd h (by simp)
  · rintro ⟨name, bounds, hwords, hid, hname, hbounds⟩
    have hword := hwords.isWord
    refine ⟨_, splitBody_eq_ok_iff.2 hwords, ?_⟩
    have hvariable := (loopVariable_eq_ok_iff (hword name (by simp))).2 ⟨hid, hname⟩
    obtain ⟨name', start', stop', step'⟩ := l
    cases hbounds with
    | cons hstart hbounds =>
    cases hbounds with
    | cons hstop hbounds =>
    have hstart' := (loopBound_eq_ok_iff (hword _ (by simp))).2 hstart
    have hstop' := (loopBound_eq_ok_iff (hword _ (by simp))).2 hstop
    cases step' with
    | none =>
      cases hbounds with
      | nil =>
        dsimp only
        rw [hvariable, hstart', hstop']
        rfl
    | some step' =>
      cases hbounds with
      | cons hstep hbounds =>
      cases hbounds with
      | nil =>
        have hstep' := (loopBound_eq_ok_iff (hword _ (by simp))).2 hstep
        dsimp only
        rw [hvariable, hstart', hstop', hstep']
        rfl

theorem map_mapError_eq_ok_iff {α : Type} {x : Except BodyFault α} {f : α → Tag} {t : Tag} :
    (x.map f).mapError TagFault.body = .ok t ↔ ∃ a, x = .ok a ∧ f a = t := by
  cases x <;> simp [Except.map, Except.mapError]

/-- Reading a tag follows its grammar: it has one of the shapes, its body splits into words, and
each word has a form of its own or is the bound of a loop. -/
theorem ofChars_eq_ok_iff {tag : List Char} {t : Tag} :
    ofChars tag = .ok t ↔ TagGrammar tag t := by
  unfold ofChars
  constructor
  · intro h
    split at h
    · exact absurd h (by simp)
    · rename_i hshape
      obtain rfl := Except.ok.inj h
      exact .close (TagShape.ofChars?_eq_some_iff.1 hshape)
    · rename_i body hshape
      obtain ⟨elements, he, rfl⟩ := map_mapError_eq_ok_iff.1 h
      obtain ⟨words, hwords, hne, hforms⟩ := echoElements_eq_ok_iff.1 he
      exact .echo (TagShape.ofChars?_eq_some_iff.1 hshape) hwords hne hforms
    · rename_i body hshape
      obtain ⟨⟨name', start, stop, step⟩, hl, rfl⟩ := map_mapError_eq_ok_iff.1 h
      obtain ⟨name, bounds, hwords, hid, rfl, hbounds⟩ := loopHead_eq_ok_iff.1 hl
      exact .loop (TagShape.ofChars?_eq_some_iff.1 hshape) hwords hid hbounds
  · intro h
    cases h with
    | close hform => rw [TagShape.ofChars?_eq_some_iff.2 hform]
    | echo hform hwords hne hforms =>
      rw [TagShape.ofChars?_eq_some_iff.2 hform]
      exact map_mapError_eq_ok_iff.2
        ⟨_, echoElements_eq_ok_iff.2 ⟨_, hwords, hne, hforms⟩, rfl⟩
    | loop hform hwords hid hbounds =>
      rw [TagShape.ofChars?_eq_some_iff.2 hform]
      exact map_mapError_eq_ok_iff.2
        ⟨_, loopHead_eq_ok_iff.2 ⟨_, _, hwords, hid, rfl, hbounds⟩, rfl⟩

end Tag

end Stencil
