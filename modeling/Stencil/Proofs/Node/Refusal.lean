import Stencil.Proofs.Node.RoundTrip
import Stencil.Proofs.Steps

/-!
# Templates that are refused at a tag

A tag that does not fit is noticed as soon as it is read. `Refuses` tells, without a lexer, at which
tag the reading of some characters stops, and it knows nothing of what stands behind that tag.
Reading agrees with it in both directions (`Refuses.parseFrom` and `exists_refuses`), and so
whatever follows the tag, the template is refused for the same reason and at the same place
(`parse_refused`).
-/

set_option autoImplicit false

namespace Stencil

/-- Whether a fault is met at a tag. Open loops are noticed at the end only, where a further text
could still make up for them. -/
def ParseFault.AtTag : ParseFault → Prop
  | .unclosedLoops _ => False
  | _ => True

/-- Why a tag does not fit, where it is no tag at all or there is no loop for it to close. -/
inductive ParseFault.Of (tag : List Char) : ParseFault → Prop
  | tag {fault : TagFault} (h : Tag.ofChars tag = .error fault) : Of tag (.tag fault)
  | unmatchedEnd (h : Tag.ofChars tag = .ok .close) : Of tag .unmatchedEnd

/-! ## One token -/

/-- What a token makes of the open loops and of the nodes read so far, if it fits. It is one step of
the parser, cut out so that reading can be followed token by token up to the one that does not fit.
-/
def attach (outer : List OpenLoop) (nodes : List Node) (token : Token) :
    Except ParseFault (List OpenLoop × List Node) :=
  match token.kind with
  | .tag =>
    match Tag.ofChars token.value.toList, outer with
    | .error fault, _ => .error (.tag fault)
    | .ok (.echo elements), _ => .ok (outer, .echo elements :: nodes)
    | .ok (.loop loop), _ => .ok (⟨loop, nodes⟩ :: outer, [])
    | .ok .close, o :: outer => .ok (outer, .forLoop o.loop nodes.reverse :: o.before)
    | .ok .close, [] => .error .unmatchedEnd
  | _ => .ok (outer, .text token.value :: nodes)

section

variable {l l' : Lexer} {token : Token} {outer outer' : List OpenLoop} {nodes nodes' : List Node}
  {fault : ParseFault} {place : Place}

theorem of_attach (h : attach outer nodes token = .error fault) :
    token.kind = .tag ∧ fault.Of token.value.toList := by
  unfold attach at h
  split at h
  · rename_i hkind
    refine ⟨hkind, ?_⟩
    split at h
    · rename_i htag
      cases h
      exact .tag htag
    · exact absurd h (by simp)
    · exact absurd h (by simp)
    · exact absurd h (by simp)
    · rename_i htag
      cases h
      exact .unmatchedEnd htag
  · exact absurd h (by simp)

theorem parseFrom_of_next (h : l.next = (.ok token, l')) (hk : token.kind ≠ .finish)
    (outer : List OpenLoop) (nodes : List Node) :
    parseFrom l outer nodes = match attach outer nodes token with
      | .error fault => (.error (.structural fault token.place), l')
      | .ok (outer, nodes) => parseFrom l' outer nodes := by
  obtain ⟨kind, value, place⟩ := token
  cases kind with
  | finish => exact absurd rfl hk
  | text => exact parseFrom_of_text h outer nodes
  | tag =>
    rw [parseFrom_of_tag h]
    unfold attach
    dsimp only
    cases Tag.ofChars value.toList with
    | error fault => rfl
    | ok t =>
      cases t with
      | close => cases outer <;> rfl
      | echo elements => rfl
      | loop loop => rfl

end

/-! ## The first tag that does not fit -/

/-- Reading the characters from a place on, within open loops and behind some nodes, up to the end
of the first tag that does not fit, and the place where that tag starts. -/
inductive Refuses : Place → List OpenLoop → List Node → List Char → ParseFault → Place → Prop
  | here {p : Place} {outer : List OpenLoop} {nodes : List Node} {front : List Char}
      {token : Token} {fault : ParseFault} (ht : Takes p front token)
      (ha : attach outer nodes token = .error fault) :
      Refuses p outer nodes front fault token.place
  | later {p q : Place} {outer outer' : List OpenLoop} {nodes nodes' : List Node}
      {front cs : List Char} {token : Token} {fault : ParseFault} (ht : Takes p front token)
      (ha : attach outer nodes token = .ok (outer', nodes')) (hend : token.EndsAt cs)
      (h : Refuses (p.after front) outer' nodes' cs fault q) :
      Refuses p outer nodes (front ++ cs) fault q

/-- Where a text can end depends on the next character alone. So a text that ended before the tag
ends there too when something else stands behind the tag. -/
theorem Token.EndsAt.congr {token : Token} {cs cs' : List Char} (h : token.EndsAt cs)
    (hsame : cs.head? = cs'.head?) : token.EndsAt cs' := by
  intro hkind
  rw [← hsame]
  exact h hkind

theorem Takes.exists_tag {p : Place} {front : List Char} {token : Token} (h : Takes p front token)
    (hk : token.kind = .tag) : ∃ gap tag, front = gap ++ tag ∧ Enclosed tag ∧
      token.value.toList = tag ∧ token.place = p.after gap := by
  induction h with
  | space _ _ ih =>
    obtain ⟨gap, tag, rfl, he, hvalue, hplace⟩ := ih hk
    exact ⟨_ :: gap, tag, rfl, he, hvalue, hplace⟩
  | tag he => exact ⟨[], _, rfl, he, String.toList_ofList, rfl⟩
  | text _ _ _ => exact absurd hk (by simp)

namespace Refuses

variable {p q : Place} {outer : List OpenLoop} {nodes : List Node} {cs : List Char}
  {fault : ParseFault}

theorem ne_nil (h : Refuses p outer nodes cs fault q) : cs ≠ [] := by
  cases h with
  | here ht _ => exact ht.ne_nil
  | later ht _ _ _ => exact List.append_ne_nil_of_left_ne_nil ht.ne_nil _

theorem exists_tag (h : Refuses p outer nodes cs fault q) :
    ∃ front tag, cs = front ++ tag ∧ Enclosed tag ∧ q = p.after front ∧ fault.Of tag := by
  induction h with
  | here ht ha =>
    obtain ⟨hkind, hof⟩ := of_attach ha
    obtain ⟨gap, tag, rfl, he, hvalue, hplace⟩ := ht.exists_tag hkind
    rw [hvalue] at hof
    exact ⟨gap, tag, rfl, he, hplace, hof⟩
  | later _ _ _ _ ih =>
    obtain ⟨front, tag, rfl, he, rfl, hof⟩ := ih
    refine ⟨_, tag, (List.append_assoc _ front tag).symm, he, ?_, hof⟩
    rw [Place.after_append]

/-- A lexer that has such characters ahead gives them away up to that tag, and nothing more. The
induction is on `Refuses`, which has a step for every token that is read before the fault. -/
theorem parseFrom (h : Refuses p outer nodes cs fault q) :
    ∀ {l : Lexer} {rest : List Char}, l.isFinished = false → l.place = p → l.rest = cs ++ rest →
      (parseFrom l outer nodes).1 = .error (.structural fault q) := by
  induction h with
  | here ht ha =>
    intro l rest hl hplace hrest
    have hend : Token.EndsAt _ rest := fun hkind =>
      absurd (hkind.symm.trans (of_attach ha).1) (by simp)
    obtain ⟨l', hnext, -⟩ := Lexer.exists_next_of_takes ht hl hplace hrest hend
    rw [parseFrom_of_next hnext ht.kind_ne_finish, ha]
  | later ht ha hend h ih =>
    intro l rest hl hplace hrest
    rw [List.append_assoc] at hrest
    obtain ⟨l', hnext, hl', hrest', hplace'⟩ := Lexer.exists_next_of_takes ht hl hplace hrest
      (hend.congr (List.head?_append_of_ne_nil _ h.ne_nil).symm)
    rw [parseFrom_of_next hnext ht.kind_ne_finish, ha]
    exact ih hl' hplace' hrest'

end Refuses

/-- A lexer that is refused at a tag has such characters ahead. This is the converse, by induction
on how much the lexer has left, since reading on is a recursion over that. -/
theorem exists_refuses (l : Lexer) :
    ∀ {outer : List OpenLoop} {nodes : List Node} {fault : ParseFault} {q : Place},
      (parseFrom l outer nodes).1 = .error (.structural fault q) → fault.AtTag →
        ∃ cs back, l.rest = cs ++ back ∧ Refuses l.place outer nodes cs fault q := by
  -- Token by token: one that does not fit is the tag itself, and behind one that fits there are
  -- such characters again.
  induction l using Lexer.induction with
  | step l ih =>
    intro outer nodes fault q h htag
    cases hnext : l.next with
    | mk r l' =>
    cases r with
    | error e =>
      rw [parseFrom_of_error hnext] at h
      exact absurd h (by simp)
    | ok token =>
    rcases Lexer.takes_of_next hnext with ⟨hkind, -⟩ | ⟨front, hrest, hplace, ht, hend⟩
    · -- Open loops that are noticed at the end are no tag.
      obtain ⟨kind, value, place⟩ := token
      obtain rfl : kind = .finish := hkind
      rw [parseFrom_of_finish hnext] at h
      split at h
      · exact absurd h (by simp)
      · cases h
        exact htag.elim
    rw [parseFrom_of_next hnext ht.kind_ne_finish] at h
    cases ha : attach outer nodes token with
    | error fault' =>
      rw [ha] at h
      cases h
      exact ⟨front, l'.rest, hrest, .here ht ha⟩
    | ok next =>
      obtain ⟨outer', nodes'⟩ := next
      rw [ha] at h
      obtain ⟨cs, back, hback, hrefuses⟩ := ih token l' hnext ht.kind_ne_finish h htag
      have hend' : token.EndsAt cs := by
        rw [hback] at hend
        exact hend.congr (List.head?_append_of_ne_nil _ hrefuses.ne_nil)
      rw [hplace] at hrefuses
      refine ⟨front ++ cs, back, ?_, .later ht ha hend' hrefuses⟩
      rw [hrest, hback, List.append_assoc]

/-! ## Templates -/

theorem parse_eq_error_iff {s : String} {e : ParseError} :
    parse s = .error e ↔ (parseFrom (Lexer.ofText s) [] []).1 = .error e := map_eq_error_iff

/-- A template that is refused at a tag: whatever is put in place of what stands behind this tag,
the template is refused for the same reason and at the same place. -/
theorem parse_refused {s : String} {fault : ParseFault} {place : Place}
    (h : parse s = .error (.structural fault place)) (htag : fault.AtTag) :
    ∃ front tag back, trim s.toList = front ++ (tag ++ back) ∧ Enclosed tag ∧ fault.Of tag ∧
      place = Place.start.after front ∧
      ∀ u : String,
        parse (String.ofList (front ++ tag) ++ u) = .error (.structural fault place) := by
  obtain ⟨cs, back, hsplit, hrefuses⟩ := exists_refuses _ (parse_eq_error_iff.1 h) htag
  obtain ⟨front, tag, rfl, he, hplace, hof⟩ := hrefuses.exists_tag
  have hsplit : trim s.toList = front ++ tag ++ back := hsplit
  refine ⟨front, tag, back, by rw [hsplit, List.append_assoc], he, hof, hplace, fun u => ?_⟩
  have htrimmed : Trimmed (front ++ tag) := by
    refine ⟨?_, ?_⟩
    · have hhead := (trimmed_trim s.toList).1
      rw [hsplit, List.head?_append_of_ne_nil _ hrefuses.ne_nil] at hhead
      exact hhead
    · rw [List.getLast?_append_of_ne_nil _ he.ends.1]
      exact he.ends.2.2
  have hrest : (Lexer.ofText (String.ofList (front ++ tag) ++ u)).rest =
      front ++ tag ++ trimEnd u.toList := by
    show trim (String.ofList (front ++ tag) ++ u).toList = _
    rw [String.toList_append, String.toList_ofList, htrimmed.trim_append hrefuses.ne_nil]
  exact parse_eq_error_iff.2 (hrefuses.parseFrom rfl rfl hrest)

/-- An end tag that closes nothing, with an open tag behind it. The open tag would be an error of
its own, but nobody gets there. -/
theorem parse_refused_end :
    let place : Place := ⟨1, 1, 2⟩
    parse "a\x7b$END$\x7d \x7b" = .error (.structural .unmatchedEnd place) ∧
      ParseFault.AtTag .unmatchedEnd ∧
      ∃ front tag back, trim "a\x7b$END$\x7d \x7b".toList = front ++ (tag ++ back) ∧
        Enclosed tag ∧ ParseFault.unmatchedEnd.Of tag ∧ place = Place.start.after front ∧
        ∀ u : String, parse (String.ofList (front ++ tag) ++ u) =
          .error (.structural .unmatchedEnd place) := by
  intro place
  have hfirst : Takes Place.start ['a'] ⟨.text, "a", Place.start⟩ :=
    .text (.plain rfl .nil) (by decide) rfl
  have htag : Takes place "\x7b$END$\x7d".toList ⟨.tag, "\x7b$END$\x7d", place⟩ :=
    .tag ⟨"$END$".toList, rfl, by decide⟩
  have hclose : Tag.ofChars "\x7b$END$\x7d".toList = .ok .close :=
    Tag.ofChars_eq_ok_iff.2 (.close tagForm_close)
  have hattach : attach [] [.text "a"] ⟨.tag, "\x7b$END$\x7d", place⟩ = .error .unmatchedEnd := by
    simp only [attach, hclose]
  have hrefuses : Refuses Place.start [] [] (['a'] ++ "\x7b$END$\x7d".toList) .unmatchedEnd place :=
    .later hfirst rfl (fun _ => rfl) (.here htag hattach)
  have hrest : (Lexer.ofText "a\x7b$END$\x7d \x7b").rest =
      ['a'] ++ "\x7b$END$\x7d".toList ++ [' ', '\x7b'] := rfl
  have h := parse_eq_error_iff.2 (hrefuses.parseFrom rfl rfl hrest)
  exact ⟨h, trivial, parse_refused h trivial⟩

end Stencil
