import Mathlib.Data.List.Forall2
import Stencil.Text.Charset

/-!
# Reading back what was written in pieces

In the bytes of a character and some more a character set reads that character, and behind it what
it reads in the others alone (`decodeChars?_append`). So texts that were written one by one are read
as one text, whatever the characters and wherever the cuts. Only `Charset.utf16` finds a mark at
each cut, and reads it as a character that was not written (`decode?_flatten`).
-/

set_option autoImplicit false

namespace Stencil

/-! ## Lists put together -/

section

variable {α : Type}

theorem intercalate_cons (separator l : List α) (lists : List (List α)) :
    separator.intercalate (l :: lists) = l ++ lists.flatMap (separator ++ ·) := by
  induction lists generalizing l with
  | nil => simp
  | cons next lists ih =>
    rw [List.intercalate_cons_cons, ih, List.flatMap_cons]
    simp only [List.append_assoc]

theorem length_flatMap_append (separator : List α) (lists : List (List α)) :
    (lists.flatMap (separator ++ ·)).length =
      lists.length * separator.length + lists.flatten.length := by
  induction lists with
  | nil => simp
  | cons l lists ih =>
    simp only [List.flatMap_cons, List.length_append, ih, List.length_cons, List.flatten_cons,
      Nat.succ_mul]
    omega

theorem intercalate_eq_flatten_iff {separator : List α} {lists : List (List α)} :
    separator.intercalate lists = lists.flatten ↔ separator = [] ∨ lists.length ≤ 1 := by
  cases lists with
  | nil => simp
  | cons l lists =>
    rw [intercalate_cons, List.flatten_cons, List.append_cancel_left_eq]
    constructor
    · intro h
      have hlength := length_flatMap_append separator lists
      rw [h, Nat.right_eq_add, Nat.mul_eq_zero] at hlength
      rcases hlength with hlists | hseparator
      · exact .inr (by simp [hlists])
      · exact .inl (List.length_eq_zero_iff.1 hseparator)
    · rintro (rfl | hlength)
      · simp [List.flatMap_def]
      · obtain rfl : lists = [] := List.length_eq_zero_iff.1 (by simpa using hlength)
        rfl

end

namespace Charset

/-! ## Units of sixteen bits -/

section

variable {u v : Nat}

theorem decodeUnits?_cons (hhigh : isHighSurrogate u = false) (hlow : isLowSurrogate u = false)
    (us : List Nat) : decodeUnits? (u :: us) = (decodeUnits? us).map (Char.ofNat u :: ·) := by
  cases us <;> simp [decodeUnits?, hhigh, hlow]

theorem decodeUnits?_pair (hhigh : isHighSurrogate u = true) (hlow : isLowSurrogate v = true)
    (us : List Nat) :
    decodeUnits? (u :: v :: us) = (decodeUnits? us).map
      (Char.ofNat (0x10000 + (u - 0xd800) * 0x400 + (v - 0xdc00)) :: ·) := by
  simp [decodeUnits?, hhigh, hlow]

end

theorem toNat_valid (c : Char) : c.toNat < 0xd800 ∨ 0xdfff < c.toNat ∧ c.toNat < 0x110000 := c.valid

theorem decodeUnits?_units16_append (c : Char) (us : List Nat) :
    decodeUnits? (units16 c ++ us) = (decodeUnits? us).map (c :: ·) := by
  have hvalid := toNat_valid c
  rw [units16]
  split
  · have hhigh : isHighSurrogate c.toNat = false := by
      simp only [isHighSurrogate, Bool.and_eq_false_iff, decide_eq_false_iff_not]
      omega
    have hlow : isLowSurrogate c.toNat = false := by
      simp only [isLowSurrogate, Bool.and_eq_false_iff, decide_eq_false_iff_not]
      omega
    rw [List.singleton_append, decodeUnits?_cons hhigh hlow, Char.ofNat_toNat]
  · -- The halves hold the quotient and the remainder by `0x400` of what is above `0x10000`.
    rw [List.cons_append, List.singleton_append, decodeUnits?_pair]
    · rw [Nat.add_sub_cancel_left, Nat.add_sub_cancel_left, Nat.add_assoc, Nat.div_add_mod',
        Nat.add_sub_cancel' (by omega), Char.ofNat_toNat]
    · simp only [isHighSurrogate, Bool.and_eq_true, decide_eq_true_eq]
      omega
    · simp only [isLowSurrogate, Bool.and_eq_true, decide_eq_true_eq]
      omega

theorem lt_of_mem_units16 {c : Char} {u : Nat} (h : u ∈ units16 c) : u < 0x10000 := by
  have hvalid := toNat_valid c
  rw [units16] at h
  split at h
  · rw [List.mem_singleton.1 h]
    assumption
  · rcases List.mem_pair.1 h with hu | hu <;> omega

theorem joinUnits?_append {join : UInt8 → UInt8 → Nat} {first second : Nat → UInt8}
    (hjoin : ∀ u < 0x10000, join (first u) (second u) = u) {us : List Nat}
    (hus : ∀ u ∈ us, u < 0x10000) (rest : List UInt8) :
    joinUnits? join (us.flatMap (fun u => [first u, second u]) ++ rest) =
      (joinUnits? join rest).map (us ++ ·) := by
  induction us with
  | nil => simp
  | cons u us ih =>
    obtain ⟨hu, hus⟩ := List.forall_mem_cons.1 hus
    simp only [List.flatMap_cons, List.cons_append, List.nil_append, joinUnits?, ih hus, hjoin u hu,
      Option.map_map]
    rfl

theorem joinUnits?_bind_append {join : UInt8 → UInt8 → Nat} {first second : Nat → UInt8}
    (hjoin : ∀ u < 0x10000, join (first u) (second u) = u) (c : Char) (rest : List UInt8) :
    (joinUnits? join ((units16 c).flatMap (fun u => [first u, second u]) ++ rest)).bind
        decodeUnits? =
      ((joinUnits? join rest).bind decodeUnits?).map (c :: ·) := by
  rw [joinUnits?_append hjoin fun u => lt_of_mem_units16]
  cases joinUnits? join rest with
  | none => rfl
  | some us => exact decodeUnits?_units16_append c us

theorem toNat_low (u : Nat) : (low u).toNat = u % 256 := by
  simp [low]

theorem toNat_high {u : Nat} (h : u < 0x10000) : (high u).toNat = u / 256 := by
  simp only [high, UInt8.toNat_ofNat']
  omega

theorem decodeLittle?_append (c : Char) (rest : List UInt8) :
    decodeLittle? (encodeLittle c ++ rest) = (decodeLittle? rest).map (c :: ·) := by
  refine joinUnits?_bind_append (fun u hu => ?_) c rest
  rw [toNat_low, toNat_high hu]
  omega

theorem decodeBig?_append (c : Char) (rest : List UInt8) :
    decodeBig? (encodeBig c ++ rest) = (decodeBig? rest).map (c :: ·) := by
  refine joinUnits?_bind_append (fun u hu => ?_) c rest
  rw [toNat_low, toNat_high hu]
  omega

/-! ## Single bytes -/

theorem decodeByte?_of_byteBelow? {limit : Nat} (hlimit : limit ≤ 0x100) {c : Char}
    {bytes : List UInt8} (h : byteBelow? limit c = some bytes) :
    ∃ b, bytes = [b] ∧ decodeByte? limit b = some c := by
  rw [byteBelow?] at h
  split at h
  · rename_i hc
    have hb : (UInt8.ofNat c.toNat).toNat = c.toNat := by
      rw [UInt8.toNat_ofNat']
      omega
    refine ⟨_, (Option.some.inj h).symm, ?_⟩
    rw [decodeByte?, hb, if_pos hc, Char.ofNat_toNat]
  · exact absurd h (by simp)

theorem latin2Char?_of_latin2Byte? {c : Char} {bytes : List UInt8}
    (h : latin2Byte? c = some bytes) : ∃ b, bytes = [b] ∧ latin2Char? b = some c := by
  rw [latin2Byte?] at h
  split at h
  · rename_i hc
    have hb : (UInt8.ofNat c.toNat).toNat = c.toNat := by
      rw [UInt8.toNat_ofNat']
      omega
    refine ⟨_, (Option.some.inj h).symm, ?_⟩
    rw [latin2Char?, hb, if_pos hc, Char.ofNat_toNat]
  · obtain ⟨i, hi, hbytes⟩ := Option.map_eq_some_iff.1 h
    obtain ⟨hlt, hget, -⟩ := List.idxOf?_eq_some_iff.1 hi
    have hlength : latin2Upper.length = 0x60 := rfl
    have hb : (UInt8.ofNat (0xa0 + i)).toNat = 0xa0 + i := by
      rw [UInt8.toNat_ofNat']
      omega
    refine ⟨_, hbytes.symm, ?_⟩
    rw [latin2Char?, hb, if_neg (by omega), Nat.add_sub_cancel_left, List.getElem?_eq_getElem hlt,
      hget, Option.map_some, Char.ofNat_toNat]

theorem mapM_append {decode : UInt8 → Option Char} {c : Char} {bytes : List UInt8}
    (h : ∃ b, bytes = [b] ∧ decode b = some c) (rest : List UInt8) :
    (bytes ++ rest).mapM decode = (rest.mapM decode).map (c :: ·) := by
  obtain ⟨b, rfl, hb⟩ := h
  rw [List.singleton_append, List.mapM_cons, hb]
  cases rest.mapM decode <;> rfl

/-! ## Characters -/

theorem decodeChars?_utf8_append (c : Char) (rest : List UInt8) :
    decodeChars? .utf8 (String.utf8EncodeChar c ++ rest) =
      (decodeChars? .utf8 rest).map (c :: ·) := by
  have hbytes : ByteArray.mk (String.utf8EncodeChar c ++ rest).toArray =
      [c].utf8Encode ++ rest.toByteArray := by
    rw [List.utf8Encode, ← List.toByteArray_append, List.flatMap_singleton, ByteArray.ext_iff,
      List.data_toByteArray]
  have hrest : ByteArray.mk rest.toArray = rest.toByteArray := by
    rw [ByteArray.ext_iff, List.data_toByteArray]
  rw [decodeChars?, decodeChars?, hbytes, hrest, ByteArray.utf8Decode?_utf8Encode_singleton_append,
    Option.map_map, Option.map_map]
  congr 1
  funext cs
  simp

/-- A character is read back from its bytes, whatever bytes follow. Each set has a case of its own,
and none of them has to look further than the bytes of one character. -/
theorem decodeChars?_append {s : Charset} (hs : s ≠ .utf16) {c : Char} {bytes : List UInt8}
    (h : s.encodeChar? c = some bytes) (rest : List UInt8) :
    s.decodeChars? (bytes ++ rest) = (s.decodeChars? rest).map (c :: ·) := by
  cases s with
  | utf8 =>
    rw [← Option.some.inj h]
    exact decodeChars?_utf8_append c rest
  | ascii => exact mapM_append (decodeByte?_of_byteBelow? (by decide) h) rest
  | latin1 => exact mapM_append (decodeByte?_of_byteBelow? (by decide) h) rest
  | latin2 => exact mapM_append (latin2Char?_of_latin2Byte? h) rest
  | utf16 => exact absurd rfl hs
  | utf16le =>
    rw [← Option.some.inj h]
    exact decodeLittle?_append c rest
  | utf16be =>
    rw [← Option.some.inj h]
    exact decodeBig?_append c rest

theorem encodeChars?_cons_eq_some_iff {s : Charset} {c : Char} {cs : List Char}
    {bytes : List UInt8} :
    s.encodeChars? (c :: cs) = some bytes ↔ ∃ first others,
      s.encodeChar? c = some first ∧ s.encodeChars? cs = some others ∧ first ++ others = bytes := by
  simp [encodeChars?, Option.bind_eq_some_iff]

theorem encodeChars?_append {s : Charset} {cs ds : List Char} {x y : List UInt8}
    (hcs : s.encodeChars? cs = some x) (hds : s.encodeChars? ds = some y) :
    s.encodeChars? (cs ++ ds) = some (x ++ y) := by
  induction cs generalizing x with
  | nil =>
    obtain rfl := Option.some.inj hcs
    exact hds
  | cons c cs ih =>
    obtain ⟨first, others, hfirst, hothers, rfl⟩ := encodeChars?_cons_eq_some_iff.1 hcs
    exact encodeChars?_cons_eq_some_iff.2
      ⟨first, _, hfirst, ih hothers, (List.append_assoc ..).symm⟩

theorem decodeChars?_nil (s : Charset) : s.decodeChars? [] = some [] := by
  cases s <;> rfl

theorem decodeChars?_encodeChars?_append {s : Charset} (hs : s ≠ .utf16) {cs : List Char}
    {bytes : List UInt8} (h : s.encodeChars? cs = some bytes) (rest : List UInt8) :
    s.decodeChars? (bytes ++ rest) = (s.decodeChars? rest).map (cs ++ ·) := by
  induction cs generalizing bytes with
  | nil =>
    obtain rfl := Option.some.inj h
    simp
  | cons c cs ih =>
    obtain ⟨first, others, hfirst, hothers, rfl⟩ := encodeChars?_cons_eq_some_iff.1 h
    rw [List.append_assoc, decodeChars?_append hs hfirst, ih hothers, Option.map_map]
    rfl

theorem decodeChars?_flatten {s : Charset} (hs : s ≠ .utf16) {lists : List (List Char)}
    {pieces : List (List UInt8)}
    (h : List.Forall₂ (fun cs bytes => s.encodeChars? cs = some bytes) lists pieces) :
    s.decodeChars? pieces.flatten = some lists.flatten := by
  induction h with
  | nil => exact decodeChars?_nil s
  | cons hfirst _ ih =>
    rw [List.flatten_cons, decodeChars?_encodeChars?_append hs hfirst, ih]
    rfl

/-! ## Texts -/

theorem encode?_of_ne {s : Charset} (hs : s ≠ .utf16) (text : String) :
    s.encode? text = s.encodeChars? text.toList := by
  have hmark : s.mark = [] := by
    cases s with
    | utf16 => exact absurd rfl hs
    | _ => rfl
  rw [encode?, hmark]
  exact congrFun Option.map_id _

theorem encode?_utf8 (text : String) :
    encode? .utf8 text = some (text.toList.flatMap String.utf8EncodeChar) := by
  rw [encode?_of_ne (by decide)]
  induction text.toList with
  | nil => rfl
  | cons c cs ih =>
    rw [encodeChars?, encodeChar?, ih]
    rfl

theorem encode?_append {s : Charset} (hs : s ≠ .utf16) {a b : String} {x y : List UInt8}
    (ha : s.encode? a = some x) (hb : s.encode? b = some y) :
    s.encode? (a ++ b) = some (x ++ y) := by
  rw [encode?_of_ne hs] at ha hb ⊢
  rw [String.toList_append]
  exact encodeChars?_append ha hb

theorem encodeChars?_utf16 (cs : List Char) :
    encodeChars? .utf16 cs = encodeChars? .utf16le cs := by
  induction cs with
  | nil => rfl
  | cons c cs ih =>
    rw [encodeChars?, encodeChars?, ih]
    rfl

theorem encode?_utf16 (text : String) :
    encode? .utf16 text = encodeChars? .utf16le ('\ufeff' :: text.toList) := by
  rw [encode?, encodeChars?_utf16, encodeChars?]
  cases encodeChars? .utf16le text.toList <;> rfl

/-! ## Texts written one by one -/

/-- What a set reads between two texts that were written one by one: the mark of the second. -/
def between : Charset → String
  | .utf16 => "\ufeff"
  | _ => ""

/-- Texts, and the bytes that each of them was written to, one by one and not put together: a set
with marks has one in each piece. -/
def Pieces (s : Charset) : List String → List (List UInt8) → Prop :=
  List.Forall₂ fun text bytes => s.encode? text = some bytes

section

variable {s : Charset}

theorem between_eq_empty_iff : s.between.toList = [] ↔ s ≠ .utf16 := by
  cases s <;> simp [between]

theorem decodeChars?_utf16_flatten {texts : List String} {pieces : List (List UInt8)}
    (h : Pieces .utf16 texts pieces) :
    decodeChars? .utf16 pieces.flatten =
      some (['\ufeff'].intercalate (texts.map String.toList)) := by
  cases h with
  | nil => rfl
  | @cons text bytes texts pieces hfirst hothers =>
    have hothers : List.Forall₂ (fun cs bytes => encodeChars? .utf16le cs = some bytes)
        (texts.map fun text => '\ufeff' :: text.toList) pieces :=
      List.forall₂_map_left_iff.2 (hothers.imp fun text _ => (encode?_utf16 text).symm.trans)
    obtain ⟨chars, hchars, rfl⟩ := Option.map_eq_some_iff.1 hfirst
    rw [encodeChars?_utf16] at hchars
    show decodeChars? .utf16le (chars ++ pieces.flatten) = _
    rw [decodeChars?_encodeChars?_append (by decide) hchars,
      decodeChars?_flatten (by decide) hothers, List.map_cons, intercalate_cons, List.flatMap_map]
    rfl

theorem decode?_flatten {texts : List String} {pieces : List (List UInt8)}
    (h : s.Pieces texts pieces) :
    s.decode? pieces.flatten = some (s.between.intercalate texts) := by
  have hchars : s.decodeChars? pieces.flatten =
      some (s.between.toList.intercalate (texts.map String.toList)) := by
    by_cases hs : s = .utf16
    · subst hs
      exact decodeChars?_utf16_flatten h
    · rw [intercalate_eq_flatten_iff.2 (.inl (between_eq_empty_iff.2 hs))]
      exact decodeChars?_flatten hs
        (List.forall₂_map_left_iff.2 (h.imp fun text _ => (encode?_of_ne hs text).symm.trans))
  rw [decode?, hchars, ← String.toList_intercalate]
  exact congrArg some String.ofList_toList

/-- The marks are all that is read but was not written. There is none between texts if there are
less than two of them. -/
theorem intercalate_between_eq_join_iff (texts : List String) :
    s.between.intercalate texts = String.join texts ↔ s ≠ .utf16 ∨ texts.length ≤ 1 := by
  rw [← String.toList_inj, String.toList_intercalate, String.toList_join, List.flatMap_def,
    intercalate_eq_flatten_iff, between_eq_empty_iff, List.length_map]

end

end Charset

end Stencil
