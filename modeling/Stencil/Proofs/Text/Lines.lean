import Mathlib.Data.List.Chain
import Stencil.Text.Charset

/-!
# Lines of bytes

What a recipient makes of bytes that are lines, an empty line, and a body: it takes the first
empty line for the end of the head (`splitHead`), and cuts the head at each line end (`splitLines`).
It gets back the lines and the body if and only if no line has a line end within (`splits_iff`).
Whether one has, shows in the text as it does in its bytes, as long as each character is one byte.
-/

set_option autoImplicit false

namespace Stencil

/-! ## Lists put together -/

section

variable {α β : Type}

theorem mem_intercalate {separator : List α} {lists : List (List α)} {l : List α} {a : α}
    (hl : l ∈ lists) (ha : a ∈ l) : a ∈ separator.intercalate lists := by
  induction lists with
  | nil => exact nomatch hl
  | cons first lists ih =>
    cases lists with
    | nil => rwa [List.intercalate_singleton, ← List.mem_singleton.1 hl]
    | cons next lists =>
      rw [List.intercalate_cons_cons, List.append_assoc]
      rcases List.mem_cons.1 hl with rfl | hl
      · exact List.mem_append_left _ ha
      · exact List.mem_append_right _ (List.mem_append_right _ (ih hl))

theorem map_intercalate (f : α → β) (separator : List α) (lists : List (List α)) :
    (separator.intercalate lists).map f =
      (separator.map f).intercalate (lists.map (·.map f)) := by
  induction lists with
  | nil => rfl
  | cons first lists ih =>
    cases lists with
    | nil => simp
    | cons next lists =>
      simp only [List.map_cons, List.intercalate_cons_cons, List.map_append] at ih ⊢
      rw [ih]

end

/-! ## Reading -/

def Apart {α : Type} (a b : α) (l : List α) : Prop := l.IsChain fun x y => ¬ (x = a ∧ y = b)

instance {α : Type} [DecidableEq α] (a b : α) (l : List α) : Decidable (Apart a b l) :=
  inferInstanceAs (Decidable (List.IsChain _ l))

def splitLines : List UInt8 → List (List UInt8)
  | [] => [[]]
  | 13 :: 10 :: rest => [] :: splitLines rest
  | b :: rest => (splitLines rest).modifyHead (b :: ·)

/-- What stands before the first empty line, without its line end, and what stands behind it. This
is how a recipient finds the end of a header, who knows nothing of what it was made of. -/
def splitHead : List UInt8 → Option (List UInt8 × List UInt8)
  | [] => none
  | 13 :: 10 :: 13 :: 10 :: rest => some ([], rest)
  | b :: rest => (splitHead rest).map fun (head, body) => (b :: head, body)

section

variable {α : Type} {a b : α}

theorem Apart.tail {x : α} {l : List α} (h : Apart a b (x :: l)) : Apart a b l :=
  List.IsChain.tail h

theorem apart_of_not_mem {l : List α} (h : a ∉ l) : Apart a b l := by
  induction l with
  | nil => exact .nil
  | cons x l ih =>
    obtain ⟨hx, hl⟩ := not_or.1 (mt List.mem_cons.2 h)
    exact List.isChain_cons.2 ⟨fun _ _ heq => hx heq.1.symm, ih hl⟩

theorem apart_append_iff {l m : List α}
    (h : ∀ x ∈ l.getLast?, ∀ y ∈ m.head?, ¬ (x = a ∧ y = b)) :
    Apart a b (l ++ m) ↔ Apart a b l ∧ Apart a b m := by
  rw [Apart, List.isChain_append]
  exact ⟨fun hboth => ⟨hboth.1, hboth.2.1⟩, fun hboth => ⟨hboth.1, hboth.2, h⟩⟩

theorem not_cons_cons_of_apart {x : α} {l rest more : List α} (hab : a ≠ b)
    (h : Apart a b (x :: l)) : x :: (l ++ a :: rest) ≠ a :: b :: more := by
  intro heq
  obtain ⟨rfl, hrest⟩ := List.cons.inj heq
  cases l with
  | nil => exact hab (List.cons.inj hrest).1
  | cons y l => exact (List.isChain_cons_cons.1 h).1 ⟨rfl, (List.cons.inj hrest).1⟩

end

/-! ## Lines -/

theorem splitLines_cons {b : UInt8} {rest : List UInt8}
    (h : ∀ more, b :: rest ≠ 13 :: 10 :: more) :
    splitLines (b :: rest) = (splitLines rest).modifyHead (b :: ·) := by
  rw [splitLines]
  rintro more rfl rfl
  exact h more rfl

theorem splitLines_of_apart {line : List UInt8} (h : Apart 13 10 line) :
    splitLines line = [line] := by
  induction line with
  | nil => rfl
  | cons b line ih =>
    rw [splitLines_cons, ih h.tail]
    · rfl
    · rintro more heq
      obtain ⟨rfl, rfl⟩ := List.cons.inj heq
      exact (List.isChain_cons_cons.1 h).1 ⟨rfl, rfl⟩

theorem splitLines_append {line : List UInt8} (h : Apart 13 10 line) (rest : List UInt8) :
    splitLines (line ++ 13 :: 10 :: rest) = line :: splitLines rest := by
  induction line with
  | nil => rfl
  | cons b line ih =>
    rw [List.cons_append, splitLines_cons fun _ => not_cons_cons_of_apart (by decide) h, ih h.tail]
    rfl

theorem splitLines_intercalate {lines : List (List UInt8)} (hne : lines ≠ [])
    (h : ∀ line ∈ lines, Apart 13 10 line) : splitLines ([13, 10].intercalate lines) = lines := by
  induction lines with
  | nil => exact absurd rfl hne
  | cons line lines ih =>
    obtain ⟨hline, hlines⟩ := List.forall_mem_cons.1 h
    cases lines with
    | nil => rw [List.intercalate_singleton, splitLines_of_apart hline]
    | cons next lines =>
      rw [List.intercalate_cons_cons, List.append_assoc, List.cons_append, List.singleton_append,
        splitLines_append hline, ih (by simp) hlines]

theorem exists_splitLines_eq_cons (bytes : List UInt8) :
    ∃ line lines, splitLines bytes = line :: lines ∧ line <+: bytes := by
  fun_induction splitLines bytes with
  | case1 => exact ⟨[], [], rfl, List.nil_prefix⟩
  | case2 rest ih => exact ⟨[], splitLines rest, rfl, List.nil_prefix⟩
  | case3 b rest hne ih =>
    obtain ⟨line, lines, hsplit, hprefix⟩ := ih
    rw [hsplit]
    exact ⟨b :: line, lines, rfl, List.cons_prefix_cons.2 ⟨rfl, hprefix⟩⟩

theorem apart_of_mem_splitLines {bytes line : List UInt8} (h : line ∈ splitLines bytes) :
    Apart 13 10 line := by
  fun_induction splitLines bytes generalizing line with
  | case1 =>
    rw [List.mem_singleton.1 h]
    exact .nil
  | case2 rest ih =>
    rcases List.mem_cons.1 h with rfl | hmem
    · exact .nil
    · exact ih hmem
  | case3 b rest hne ih =>
    obtain ⟨first, lines, hsplit, hprefix⟩ := exists_splitLines_eq_cons rest
    rw [hsplit] at h ih
    rcases List.mem_cons.1 h with rfl | hmem
    · refine List.isChain_cons.2 ⟨?_, ih List.mem_cons_self⟩
      rintro y hy ⟨rfl, rfl⟩
      obtain ⟨first', rfl⟩ : ∃ first', first = 10 :: first' := by
        cases first with
        | nil => exact nomatch hy
        | cons z first' => exact ⟨first', by rw [Option.some.inj hy]⟩
      obtain ⟨more, rfl⟩ := hprefix
      exact hne _ rfl rfl
    · exact ih (List.mem_cons_of_mem _ hmem)

/-! ## The head -/

theorem splitHead_cons {b : UInt8} {rest : List UInt8}
    (h : ∀ more, b :: rest ≠ 13 :: 10 :: 13 :: 10 :: more) :
    splitHead (b :: rest) = (splitHead rest).map fun (head, body) => (b :: head, body) := by
  rw [splitHead]
  rintro more rfl rfl
  exact h _ rfl

theorem splitHead_last {line : List UInt8} (h : Apart 13 10 line) (body : List UInt8) :
    splitHead (line ++ 13 :: 10 :: 13 :: 10 :: body) = some (line, body) := by
  induction line with
  | nil => rfl
  | cons b line ih =>
    rw [List.cons_append, splitHead_cons fun _ => not_cons_cons_of_apart (by decide) h, ih h.tail]
    rfl

theorem splitHead_append {line : List UInt8} (h : Apart 13 10 line) {c : UInt8} (hc : c ≠ 13)
    (rest : List UInt8) :
    splitHead (line ++ 13 :: 10 :: c :: rest) =
      (splitHead (c :: rest)).map fun (head, body) => (line ++ 13 :: 10 :: head, body) := by
  induction line with
  | nil =>
    have hfirst : ∀ more, 13 :: 10 :: c :: rest ≠ 13 :: 10 :: 13 :: 10 :: more := by
      rintro more heq
      simp [hc] at heq
    rw [List.nil_append, splitHead_cons hfirst, splitHead_cons (by simp), Option.map_map]
    rfl
  | cons b line ih =>
    rw [List.cons_append, splitHead_cons fun _ => not_cons_cons_of_apart (by decide) h, ih h.tail,
      Option.map_map]
    rfl

theorem splitHead_intercalate {lines : List (List UInt8)} (hne : lines ≠ [])
    (h : ∀ line ∈ lines, Apart 13 10 line)
    (hfirst : ∀ line ∈ lines, ∃ c rest, line = c :: rest ∧ c ≠ 13) (body : List UInt8) :
    splitHead ([13, 10].intercalate lines ++ 13 :: 10 :: 13 :: 10 :: body) =
      some ([13, 10].intercalate lines, body) := by
  induction lines with
  | nil => exact absurd rfl hne
  | cons line lines ih =>
    obtain ⟨hline, hlines⟩ := List.forall_mem_cons.1 h
    cases lines with
    | nil => rw [List.intercalate_singleton, splitHead_last hline]
    | cons next lines =>
      have hrest := ih (by simp) hlines fun line hmem => hfirst line (List.mem_cons_of_mem _ hmem)
      obtain ⟨c, more, hnext, hc⟩ := hfirst next (by simp)
      obtain ⟨behind, hbehind⟩ : ∃ behind, [13, 10].intercalate (next :: lines) = c :: behind := by
        rw [hnext, List.intercalate_cons_cons_left]
        exact ⟨_, rfl⟩
      rw [hbehind] at hrest
      rw [List.intercalate_cons_cons, hbehind, List.append_assoc, List.append_assoc,
        List.cons_append, List.singleton_append, List.cons_append, splitHead_append hline hc,
        ← List.cons_append, hrest]
      simp

/-- Lines behind which an empty one and a body stand are read back if and only if no line has a
line end within. -/
theorem splits_iff {lines : List (List UInt8)} (hne : lines ≠ [])
    (hfirst : ∀ line ∈ lines, ∃ c rest, line = c :: rest ∧ c ≠ 13) (body : List UInt8) :
    (∃ head, splitHead ([13, 10].intercalate lines ++ 13 :: 10 :: 13 :: 10 :: body) =
        some (head, body) ∧ splitLines head = lines) ↔
      ∀ line ∈ lines, Apart 13 10 line := by
  constructor
  · rintro ⟨head, -, rfl⟩ line hmem
    exact apart_of_mem_splitLines hmem
  · intro h
    exact ⟨_, splitHead_intercalate hne h hfirst body, splitLines_intercalate hne h⟩

/-! ## Bytes of the first Latin set -/

namespace Charset

def latin1Byte (c : Char) : UInt8 := UInt8.ofNat c.toNat

theorem encodeChars?_latin1_eq_some_iff {cs : List Char} {bytes : List UInt8} :
    encodeChars? .latin1 cs = some bytes ↔
      (∀ c ∈ cs, c.toNat < 0x100) ∧ bytes = cs.map latin1Byte := by
  induction cs generalizing bytes with
  | nil => simp [encodeChars?, eq_comm]
  | cons c cs ih =>
    simp only [encodeChars?, encodeChar?, byteBelow?, bind, Option.bind_eq_some_iff, ih,
      List.forall_mem_cons, List.map_cons]
    constructor
    · rintro ⟨first, hfirst, rest, ⟨hcs, rfl⟩, hbytes⟩
      split at hfirst
      · rename_i hc
        obtain rfl := Option.some.inj hfirst
        exact ⟨⟨hc, hcs⟩, (Option.some.inj hbytes).symm⟩
      · exact absurd hfirst (by simp)
    · rintro ⟨⟨hc, hcs⟩, rfl⟩
      exact ⟨[latin1Byte c], if_pos hc, _, ⟨hcs, rfl⟩, rfl⟩

theorem encode?_latin1_eq_some_iff {text : String} {bytes : List UInt8} :
    encode? .latin1 text = some bytes ↔
      (∀ c ∈ text.toList, c.toNat < 0x100) ∧ bytes = text.toList.map latin1Byte := by
  simp [encode?, mark, encodeChars?_latin1_eq_some_iff]

theorem latin1Byte_eq_iff {c d : Char} (hc : c.toNat < 0x100) (hd : d.toNat < 0x100) :
    latin1Byte c = latin1Byte d ↔ c = d := by
  refine ⟨fun h => Char.toNat_inj.1 ?_, congrArg latin1Byte⟩
  have hbytes := congrArg UInt8.toNat h
  simp only [latin1Byte, UInt8.toNat_ofNat'] at hbytes
  omega

theorem apart_map_latin1Byte_iff {cs : List Char} (h : ∀ c ∈ cs, c.toNat < 0x100) :
    Apart 13 10 (cs.map latin1Byte) ↔ Apart '\r' '\n' cs := by
  rw [Apart, List.isChain_map]
  refine List.IsChain.iff_of_mem_imp fun c d hc hd => ?_
  rw [show (13 : UInt8) = latin1Byte '\r' from rfl, show (10 : UInt8) = latin1Byte '\n' from rfl,
    latin1Byte_eq_iff (h c hc) (by decide), latin1Byte_eq_iff (h d hd) (by decide)]

end Charset

end Stencil
