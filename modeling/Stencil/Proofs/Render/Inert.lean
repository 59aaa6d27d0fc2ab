import Stencil.Proofs.Node.RoundTrip
import Stencil.Render.Engine

/-!
# Escaped texts

Any text can be put into a template so that it stands for itself: its canonical form is read as at
most one text, with nothing in it taken for a tag, and rendered as it was but for the blanks at its
ends (`renderText_opening`).
-/

set_option autoImplicit false

namespace Stencil

/-! ## Blanks at the ends -/

theorem exists_eq_trim (cs : List Char) :
    ∃ front back, IsBlanks front ∧ IsBlanks back ∧ cs = front ++ (trim cs ++ back) := by
  refine ⟨cs.takeWhile isBlank, ((cs.dropWhile isBlank).reverse.takeWhile isBlank).reverse,
    .of_takeWhile cs, (IsBlanks.of_takeWhile _).reverse, ?_⟩
  rw [trim, trimEnd, ← List.reverse_append, List.takeWhile_append_dropWhile, List.reverse_reverse,
    List.takeWhile_append_dropWhile]

theorem trim_of_isBlanks {cs : List Char} (h : IsBlanks cs) : trim cs = [] := by
  rw [trim, List.dropWhile_eq_nil_iff.2 h]
  rfl

theorem trim_append {front cs back : List Char} (hfront : IsBlanks front) (hback : IsBlanks back)
    (hcs : Trimmed cs) : trim (front ++ (cs ++ back)) = cs := by
  by_cases hnil : cs = []
  · subst hnil
    refine trim_of_isBlanks fun c hmem => ?_
    rcases List.mem_append.1 hmem with hmem | hmem
    · exact hfront c hmem
    · exact hback c hmem
  · have hhead : (cs ++ back).head?.all (!isBlank ·) := by
      rw [List.head?_append_of_ne_nil _ hnil]
      exact hcs.1
    have hend : trimEnd back = [] := by
      rw [trimEnd, List.dropWhile_eq_nil_iff.2 hback.reverse]
      rfl
    rw [trim, dropWhile_span hfront hhead, hcs.trimEnd_append, hend, List.append_nil]

/-! ## Escapes -/

namespace Node

theorem escape_append (cs ds : List Char) : escape (cs ++ ds) = escape cs ++ escape ds :=
  List.flatMap_append

theorem escape_of_isBlanks {cs : List Char} (h : IsBlanks cs) : escape cs = cs := by
  induction cs with
  | nil => rfl
  | cons c cs ih =>
    have hc : ¬ (c = '\\' ∨ c = '{') := by
      rintro (rfl | rfl)
      · exact absurd (h _ List.mem_cons_self) (by decide)
      · exact absurd (h _ List.mem_cons_self) (by decide)
    rw [escape, List.flatMap_cons, if_neg hc]
    exact congrArg (c :: ·) (ih fun d hmem => h d (List.mem_cons_of_mem _ hmem))

end Node

theorem Escaped.trimmed {raw value : List Char} (h : Escaped raw value) (hvalue : Trimmed value) :
    Trimmed raw := by
  refine ⟨?_, ?_⟩
  · rw [h.head?_all rfl rfl]
    exact hvalue.1
  · rw [h.getLast?_eq]
    exact hvalue.2

theorem trim_escape (cs : List Char) : trim (Node.escape cs) = Node.escape (trim cs) := by
  obtain ⟨front, back, hfront, hback, hcs⟩ := exists_eq_trim cs
  have htrimmed := (escaped_escape (trim cs)).trimmed (trimmed_trim cs)
  have hsplit : Node.escape cs = front ++ (Node.escape (trim cs) ++ back) := by
    conv_lhs => rw [hcs]
    rw [Node.escape_append, Node.escape_append, Node.escape_of_isBlanks hfront,
      Node.escape_of_isBlanks hback]
  rw [hsplit, trim_append hfront hback htrimmed]

theorem cuts_escape {value : List Char} (h : Trimmed value) (hne : value ≠ []) :
    Cuts (Node.escape value) [.text value] := by
  have hescaped := escaped_escape value
  have hraw : Node.escape value ≠ [] := by rwa [ne_eq, hescaped.eq_nil_iff]
  have hspace : (Node.escape value).head?.all (!isSpace ·) := by
    rw [hescaped.head?_all rfl rfl]
    cases value with
    | nil => exact absurd rfl hne
    | cons c value =>
      have hc : isBlank c = false := by simpa using h.1
      cases hs : isSpace c with
      | false => simp [hs]
      | true => exact absurd (isBlank_of_isSpace hs) (by simp [hc])
  have hcuts : Cuts (Node.escape value ++ []) [.text value] :=
    .text hescaped hraw hspace rfl .nil
  rwa [List.append_nil] at hcuts

/-! ## Rendering -/

/-- The nodes of a text that stands alone: none for an empty one, as no token is made of it. -/
def Node.ofContent (content : String) : List Node :=
  if content = "" then [] else [.text content]

/-- The canonical form of a text is read as that text without the blanks at its ends. Nothing in it
can be taken for a tag, and if nothing is left of it, neither is there a node. -/
theorem parse_opening_text (v : String) :
    parse (Node.text v).opening = .ok (.document (Node.ofContent (trimText v))) := by
  have hchars : trim (Node.text v).opening.toList = Node.escape (trim v.toList) := by
    rw [← trim_escape]
    exact congrArg trim String.toList_ofList
  rw [parse_eq_ok_iff_cuts, hchars, trimText, Node.ofContent]
  by_cases hnil : trim v.toList = []
  · rw [hnil, if_pos rfl]
    exact ⟨[], [], [], .nil, .nil, .nil, rfl⟩
  · have hne : String.ofList (trim v.toList) ≠ "" := by
      intro hempty
      rw [← String.toList_ofList (l := trim v.toList), hempty] at hnil
      exact hnil rfl
    rw [if_neg hne]
    exact ⟨_, _, _, cuts_escape (trimmed_trim v.toList) hnil, .cons (.text _) .nil, .text .nil, rfl⟩

/-- A text that is escaped as a whole is inert. It is read without an error and gives no tag, only
the text itself without the blanks at its ends. And it is rendered to just that, whatever the limit:
no error is noted and no parameter is changed. -/
theorem renderText_opening (v : String) (limit : Nat) (request persistent : Dictionary String) :
    parse (Node.text v).opening = .ok (.document (Node.ofContent (trimText v))) ∧
      ∃ log, (∀ record ∈ log, record.level ≠ .error) ∧
        renderText limit (Node.text v).opening request persistent = .ok (.returned,
          ⟨{ TextSink.start (.start request persistent) "UTF-8" with body := trimText v },
            .empty, log⟩) := by
  have hparse := parse_opening_text v
  refine ⟨hparse, [.executing, .parsed (Node.ofContent (trimText v)).length], ?_, ?_⟩
  · simp [LogRecord.level]
  rw [renderText, render, hparse, Node.ofContent]
  by_cases hempty : trimText v = ""
  · rw [hempty]
    rfl
  · rw [if_neg hempty]
    -- The only node is a text, which is written behind an empty body.
    have hwrite : (TextSink.start (.start request persistent) "UTF-8").write (trimText v) =
        { TextSink.start (.start request persistent) "UTF-8" with body := trimText v } :=
      congrArg (TextSink.mk _ _ _) String.empty_append
    rw [← hwrite]
    rfl

end Stencil
