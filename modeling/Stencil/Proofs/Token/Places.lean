import Mathlib.Data.List.DropRight
import Stencil.Proofs.Token.Replay
import Stencil.Proofs.Token.Slices

/-!
# The places that a lexer tells

A lexer counts lines and columns as it goes, over spaces, escapes and tags that fill several lines,
and when it fails it stops in the middle of a text. `Place.In` tells the line and the column of a
place by the characters in front of it, with no regard to how it was reached. Every place that a
caller sees of a lexer, at whatever calls, is one of its template in this sense; no place is in
front of one that was seen before, and where a fault is met stands what it is about
(`Reads.tells_of_watch`, `Reads.ordered_of_watch`).
-/

set_option autoImplicit false

namespace Stencil

namespace Place

/-- A place of a text: its line and its column are those of the characters in front of it. A place
has three numbers, of which the first alone would tell it, so the others can be wrong. -/
structure In (text : List Char) (p : Place) : Prop where
  offset_le : p.offset ≤ text.length
  line_eq : p.line = 1 + (text.take p.offset).count '\n'
  column_eq : p.column = ((text.take p.offset).rtakeWhile (· != '\n')).length + 1

def Ordered (ps : List Place) : Prop := ps.Pairwise fun p q => p.offset ≤ q.offset

theorem line_after (p : Place) (cs : List Char) : (p.after cs).line = p.line + cs.count '\n' := by
  induction cs generalizing p with
  | nil => rfl
  | cons c cs ih =>
    rw [show p.after (c :: cs) = (p.next c).after cs from rfl, ih, List.count_cons]
    unfold next
    by_cases hc : c = '\n'
    · simp only [hc, if_true, beq_self_eq_true]
      omega
    · simp only [hc, if_false, beq_iff_eq]
      omega

theorem column_after_start (cs : List Char) :
    (start.after cs).column = (cs.rtakeWhile (· != '\n')).length + 1 := by
  -- The last character decides: a line feed starts anew, any other one is one column more.
  induction cs using List.reverseRecOn with
  | nil => rfl
  | append_singleton cs c ih =>
    rw [after_append, List.rtakeWhile_concat]
    show ((start.after cs).next c).column = _
    unfold next
    by_cases hc : c = '\n'
    · simp [hc]
    · simp [hc, ih]

theorem in_append (front back : List Char) : (start.after front).In (front ++ back) := by
  have hoffset : (start.after front).offset = front.length := by simp [start]
  have htake : (front ++ back).take (start.after front).offset = front := by
    rw [hoffset, List.take_left]
  constructor
  · rw [hoffset, List.length_append]
    exact Nat.le_add_right _ _
  · rw [htake, line_after]
    rfl
  · rw [htake, column_after_start]

theorem drop_append (front back : List Char) :
    (front ++ back).drop (start.after front).offset = back := by
  simp [start]

theorem offset_le_after (p : Place) (cs : List Char) : p.offset ≤ (p.after cs).offset := by
  simp

theorem Ordered.join {ps qs : List Place} {q : Place} (h : Ordered (ps ++ [q]))
    (h' : Ordered (q :: qs)) : Ordered (ps ++ q :: qs) := by
  obtain ⟨hps, -, hlast⟩ := List.pairwise_append.1 h
  apply List.pairwise_append.2
  refine ⟨hps, h', fun p hp r hr => ?_⟩
  have hpq : p.offset ≤ q.offset := hlast p hp q (List.mem_singleton.2 rfl)
  rcases List.mem_cons.1 hr with rfl | hlater
  · exact hpq
  · exact hpq.trans ((List.pairwise_cons.1 h').1 r hlater)

end Place

/-- What stands where a fault is met: a backslash that gives no character, a brace that nothing
closes, or nothing at all. -/
inductive LexFault.Meets : LexFault → List Char → Prop
  | illegalEscape {rest : List Char} (h : rest.head?.all (!Lexer.isEscapable ·)) :
      Meets .illegalEscape ('\\' :: rest)
  | unterminatedTag {rest : List Char} (h : '}' ∉ rest) : Meets .unterminatedTag ('{' :: rest)
  | afterEnd : Meets .afterEnd []

theorem Takes.exists_writes {p : Place} {front : List Char} {token : Token}
    (h : Takes p front token) : ∃ gap raw, front = gap ++ raw ∧ token.place = p.after gap ∧
      token.Writes raw := by
  induction h with
  | space _ _ ih =>
    obtain ⟨gap, raw, rfl, hplace, hwrites⟩ := ih
    exact ⟨_ :: gap, raw, rfl, hplace, hwrites⟩
  | tag he => exact ⟨[], _, rfl, rfl, .tag he⟩
  | text hr hne hs => exact ⟨[], _, rfl, rfl, .text hr (hr.head?_value hne hs)⟩

namespace Lexer

variable {l l' : Lexer} {token : Token} {e : LexError} {text : List Char}

/-! ## One token -/

theorem exists_writes_of_next (h : l.next = (.ok token, l')) :
    ∃ gap raw, l.rest = gap ++ (raw ++ l'.rest) ∧ token.place = l.place.after gap ∧
      l'.place = token.place.after raw ∧ token.Writes raw ∧
      (token.kind = .finish → raw ++ l'.rest = []) := by
  have hsplit := List.takeWhile_append_dropWhile (p := isSpace) (l := l.rest)
  unfold next at h
  split at h
  · exact absurd h (by simp)
  · rcases takes_of_read (head?_dropWhile isSpace l.rest) h with
      ⟨hrest, rfl⟩ | ⟨front, hrest, hplace, htakes, -⟩
    · have hleft : l.skipSpaces.read = l.skipSpaces.emit .finish [] l.skipSpaces.place [] := by
        rw [read, hrest]
      obtain rfl := (Prod.mk.inj (hleft.symm.trans h)).2
      have hgap : l.rest.dropWhile isSpace = [] := hrest
      rw [hgap] at hsplit
      exact ⟨_, [], hsplit.symm, rfl, rfl, .finish, fun _ => rfl⟩
    · obtain ⟨gap, raw, rfl, htoken, hwrites⟩ := htakes.exists_writes
      have hfront : l.rest.dropWhile isSpace = gap ++ raw ++ l'.rest := hrest
      rw [hfront] at hsplit
      refine ⟨l.rest.takeWhile isSpace ++ gap, raw, ?_, ?_, ?_, hwrites, ?_⟩
      · rw [List.append_assoc, ← List.append_assoc gap]
        exact hsplit.symm
      · rw [htoken, Place.after_append]
        rfl
      · rw [hplace, htoken, Place.after_append]
      · exact fun hk => absurd hk htakes.kind_ne_finish

theorem exists_meets_of_next (h : l.next = (.error e, l')) (hl : l.isFinished = true → l.rest = []) :
    ∃ front, l.rest = front ++ l'.rest ∧ l'.place = l.place.after front ∧
      e.fault.Meets l'.rest := by
  unfold next at h
  split at h
  · rename_i hfinished
    cases h
    refine ⟨[], rfl, rfl, ?_⟩
    rw [hl hfinished]
    exact .afterEnd
  · have hsplit := List.takeWhile_append_dropWhile (p := isSpace) (l := l.rest)
    unfold read at h
    split at h
    · exact absurd h (by simp [emit])
    · rename_i cs hrest
      split at h
      · rename_i hopen
        cases h
        refine ⟨l.rest.takeWhile isSpace, hsplit.symm, rfl, ?_⟩
        show LexFault.Meets .unterminatedTag l.skipSpaces.rest
        rw [hrest]
        apply LexFault.Meets.unterminatedTag
        intro hmem
        exact absurd (List.dropWhile_eq_nil_iff.1 hopen _ hmem) (by simp)
      · exact absurd h (by simp [emit])
    · dsimp only at h
      split at h
      · rename_i rest hstop
        cases h
        obtain ⟨raw, -, hraw, hplace, -⟩ := escaped_scanText l.skipSpaces.place l.skipSpaces.rest
        refine ⟨l.rest.takeWhile isSpace ++ raw, ?_, ?_, ?_⟩
        · rw [List.append_assoc, ← hraw]
          exact hsplit.symm
        · rw [Place.after_append]
          exact hplace
        · show LexFault.Meets .illegalEscape (scanText l.skipSpaces.place l.skipSpaces.rest).2.2
          have hagain := scanText_again (q := Place.start) hstop
          rw [hstop]
          apply LexFault.Meets.illegalEscape
          cases rest with
          | nil => rfl
          | cons c rest =>
            -- A character that can be escaped would not have stopped the text.
            by_contra hc
            have hc : isEscapable c = true := by simpa using hc
            rw [scanText_escape hc] at hagain
            exact absurd hagain (by simp)
      · exact absurd h (by simp [emit])

/-! ## What a call tells -/

/-- A lexer of a text: it stands where the rest of the text starts, and behind the end token nothing
is left. -/
structure Reads (text : List Char) (l : Lexer) : Prop where
  place : ∃ front, text = front ++ l.rest ∧ l.place = Place.start.after front
  finished : l.isFinished = true → l.rest = []

theorem reads_ofText (s : String) : (ofText s).Reads (trim s.toList) where
  place := ⟨[], rfl, rfl⟩
  finished := fun h => absurd h (by simp [isFinished, ofText])

/-- Tokens or a fault, and the lexer behind them: the tokens start between where reading began and
where it ended, in their order, and a fault is met where it ended. -/
structure Tells (text : List Char) (p : Place) (r : Except LexError (List Token)) (l : Lexer) :
    Prop where
  reads : l.Reads text
  token : ∀ tokens, r = .ok tokens → (∀ token ∈ tokens, token.place.In text) ∧
    Place.Ordered (p :: tokens.map Token.place ++ [l.place])
  error : ∀ e, r = .error e → e.place = l.place ∧ p.offset ≤ e.place.offset ∧
    e.fault.Meets l.rest

namespace Reads

theorem inside (h : l.Reads text) : l.place.In text := by
  obtain ⟨front, rfl, hplace⟩ := h.place
  rw [hplace]
  exact Place.in_append front l.rest

theorem drop_eq (h : l.Reads text) : text.drop l.place.offset = l.rest := by
  obtain ⟨front, rfl, hplace⟩ := h.place
  rw [hplace]
  exact Place.drop_append front l.rest

theorem exists_writes (h : l.Reads text) (hnext : l.next = (.ok token, l')) :
    ∃ raw, text.drop token.place.offset = raw ++ l'.rest ∧ token.Writes raw ∧
      (token.kind = .finish → raw ++ l'.rest = []) := by
  obtain ⟨front, rfl, hplace⟩ := h.place
  obtain ⟨gap, raw, hrest, htoken, -, hwrites, hfinish⟩ := exists_writes_of_next hnext
  refine ⟨raw, ?_, hwrites, hfinish⟩
  rw [hrest, ← List.append_assoc, htoken, hplace, ← Place.after_append]
  exact Place.drop_append _ _

theorem tells_of_next_ok (h : l.Reads text) (hnext : l.next = (.ok token, l')) :
    Tells text l.place (.ok [token]) l' := by
  obtain ⟨front, rfl, hplace⟩ := h.place
  obtain ⟨gap, raw, hrest, htoken, hleft, -, hfinish⟩ := exists_writes_of_next hnext
  rw [hplace, ← Place.after_append] at htoken
  constructor
  · constructor
    · refine ⟨front ++ gap ++ raw, ?_, ?_⟩
      · rw [hrest]
        simp only [List.append_assoc]
      · rw [hleft, htoken, ← Place.after_append]
    · intro hlast
      have hk : token.kind = .finish := by
        simpa [isFinished, last_of_next hnext] using hlast
      exact (List.append_eq_nil_iff.1 (hfinish hk)).2
  · intro tokens heq
    cases heq
    constructor
    · intro token' hmem
      rw [List.mem_singleton.1 hmem, htoken, hrest, ← List.append_assoc]
      exact Place.in_append _ _
    · have hle : l.place.offset ≤ token.place.offset := by
        rw [hplace, htoken, Place.after_append]
        exact Place.offset_le_after _ gap
      have hle' : token.place.offset ≤ l'.place.offset := by
        rw [hleft]
        exact Place.offset_le_after _ raw
      simp [Place.Ordered, hle, hle', hle.trans hle']
  · intro e heq
    exact absurd heq (by simp)

theorem tells_of_next_error (h : l.Reads text) (hnext : l.next = (.error e, l')) :
    Tells text l.place (.error e) l' := by
  obtain ⟨front, rfl, hplace⟩ := h.place
  obtain ⟨gap, hrest, hleft, hmeets⟩ := exists_meets_of_next hnext h.finished
  obtain ⟨-, hlast, heplace⟩ := next_of_error hnext
  constructor
  · constructor
    · refine ⟨front ++ gap, ?_, ?_⟩
      · rw [hrest, List.append_assoc]
      · rw [hleft, hplace, ← Place.after_append]
    · intro hfinished
      have hl : l.isFinished = true := by
        simpa [isFinished, hlast] using hfinished
      exact (List.append_eq_nil_iff.1 (hrest.symm.trans (h.finished hl))).2
  · intro tokens heq
    exact absurd heq (by simp)
  · intro e' heq
    cases heq
    refine ⟨heplace.symm, ?_, hmeets⟩
    rw [← heplace, hleft]
    exact Place.offset_le_after _ gap

theorem tells_of_tokenize (l : Lexer) :
    l.Reads text → Tells text l.place l.tokenize.1 l.tokenize.2 := by
  induction l using Lexer.induction with
  | step l ih =>
    intro h
    cases hnext : l.next with
    | mk r l' =>
    cases r with
    | error e =>
      rw [tokenize_of_error hnext]
      exact h.tells_of_next_error hnext
    | ok token =>
      have hfirst := h.tells_of_next_ok hnext
      by_cases hk : token.kind = .finish
      · rw [tokenize_of_finish hnext hk]
        exact hfirst
      · obtain ⟨hinside, hordered⟩ := hfirst.token _ rfl
        have hrest := ih token l' hnext hk hfirst.reads
        rw [tokenize_of_next hnext hk]
        refine ⟨hrest.reads, ?_, ?_⟩
        · intro tokens heq
          obtain ⟨later, hlater, rfl⟩ := map_eq_ok_iff.1 heq
          obtain ⟨hinside', hordered'⟩ := hrest.token later hlater
          refine ⟨List.forall_mem_cons.2 ⟨hinside token (List.mem_singleton.2 rfl), hinside'⟩, ?_⟩
          -- The place between the two parts is not told.
          have hjoined : Place.Ordered ([l.place, token.place] ++
              l'.place :: (later.map Token.place ++ [l'.tokenize.2.place])) :=
            Place.Ordered.join hordered hordered'
          exact hjoined.sublist (.cons_cons _ (.cons_cons _ (List.sublist_cons_self _ _)))
        · intro e heq
          obtain ⟨heplace, hle, hmeets⟩ := hrest.error e (map_eq_error_iff.1 heq)
          have hmoved : l.place.offset ≤ l'.place.offset :=
            (List.pairwise_cons.1 hordered).1 _ (by simp)
          exact ⟨heplace, hmoved.trans hle, hmeets⟩

end Reads

/-! ## What a caller sees -/

structure View where
  answer : Except CallFault (List Token)
  place : Place

def watch (l : Lexer) (call : Call) : View × Lexer :=
  let (answer, l) := l.answer call
  (⟨answer, l.place⟩, l)

def View.told (view : View) : List Place :=
  match view.answer with
  | .ok tokens => tokens.map Token.place
  | .error (.lexical e) => [e.place]
  | .error (.missing _) => []

/-- The places that are seen at a call, in their order. -/
def View.places (view : View) : List Place := view.told ++ [view.place]

/-- A call to a lexer of a text shows places of the text, and where a fault is met stands what it is
about. -/
structure View.Tells (text : List Char) (view : View) : Prop where
  inside : ∀ p ∈ view.places, p.In text
  meets : ∀ e, view.answer = .error (.lexical e) → e.fault.Meets (text.drop e.place.offset)

theorem Tells.view {p : Place} {r : Except LexError (List Token)} (h : Tells text p r l) :
    let view : View := ⟨r.mapError .lexical, l.place⟩
    view.Tells text ∧ Place.Ordered (p :: view.places) := by
  have hinside := h.reads.inside
  cases r with
  | ok tokens =>
    obtain ⟨htokens, hordered⟩ := h.token tokens rfl
    refine ⟨⟨?_, fun e heq => absurd heq (by simp [Except.mapError])⟩, hordered⟩
    intro q hq
    rcases List.mem_append.1 hq with hq | hq
    · obtain ⟨token, hmem, rfl⟩ := List.mem_map.1 hq
      exact htokens token hmem
    · rw [List.mem_singleton.1 hq]
      exact hinside
  | error e =>
    obtain ⟨heplace, hle, hmeets⟩ := h.error e rfl
    constructor
    · constructor
      · intro q hq
        have hq : q = e.place ∨ q = l.place := by
          simpa [View.places, View.told, Except.mapError] using hq
        rcases hq with rfl | rfl
        · rw [heplace]
          exact hinside
        · exact hinside
      · intro e' heq
        cases heq
        rw [heplace, h.reads.drop_eq]
        exact hmeets
    · rw [heplace] at hle
      simp [Place.Ordered, View.places, View.told, Except.mapError, heplace, hle]

namespace Reads

theorem setMode (h : l.Reads text) (mode : Mode) : (l.setMode mode).Reads text :=
  ⟨h.place, h.finished⟩

theorem watch (h : l.Reads text) (call : Call) : (l.watch call).2.Reads text ∧
    (l.watch call).1.Tells text ∧ Place.Ordered (l.place :: (l.watch call).1.places) := by
  cases call with
  | next =>
    cases hnext : l.next with
    | mk r l' =>
    cases r with
    | ok token =>
      have htells := h.tells_of_next_ok hnext
      simp only [Lexer.watch, answer, hnext]
      exact ⟨htells.reads, htells.view⟩
    | error e =>
      have htells := h.tells_of_next_error hnext
      simp only [Lexer.watch, answer, hnext]
      exact ⟨htells.reads, htells.view⟩
  | tokenize =>
    have htells := tells_of_tokenize l h
    simp only [Lexer.watch, answer]
    generalize l.tokenize = result at htells
    obtain ⟨r, l'⟩ := result
    cases r with
    | ok tokens => exact ⟨htells.reads, htells.view⟩
    | error e => exact ⟨htells.reads, htells.view⟩
  | setMode mode =>
    have hstill (answer : Except CallFault (List Token)) (hanswer : View.told ⟨answer, l.place⟩ = [])
        (hfault : ∀ e, answer ≠ .error (.lexical e)) :
        View.Tells text ⟨answer, l.place⟩ ∧
          Place.Ordered (l.place :: View.places ⟨answer, l.place⟩) := by
      refine ⟨⟨?_, fun e heq => absurd heq (hfault e)⟩, ?_⟩
      · rw [View.places, hanswer]
        exact List.forall_mem_singleton.2 h.inside
      · simp [Place.Ordered, View.places, hanswer]
    cases mode with
    | none => exact ⟨h, hstill _ rfl (by simp)⟩
    | some mode => exact ⟨h.setMode mode, hstill _ rfl (by simp)⟩

theorem tells_of_watch (h : l.Reads text) (calls : List Call) :
    ∀ view ∈ (replies Lexer.watch l calls).1, view.Tells text :=
  replies_forall (fun _ call h => (h.watch call).1) (fun _ call h => (h.watch call).2.1) h calls

theorem ordered_of_watch (h : l.Reads text) (calls : List Call) :
    Place.Ordered (l.place :: (replies Lexer.watch l calls).1.flatMap View.places) := by
  induction calls generalizing l with
  | nil => exact List.pairwise_singleton _ _
  | cons call calls ih =>
    obtain ⟨hreads, -, hordered⟩ := h.watch call
    rw [replies_cons, List.flatMap_cons, View.places, List.append_assoc, ← List.cons_append]
    exact Place.Ordered.join hordered (ih hreads)

end Reads

end Lexer

end Stencil
