import Stencil.Proofs.Render.Journal

/-!
# The frame of a response

A recipient takes what a response sends apart at the first empty line and at the line ends before
it. It finds the lines of the header and the body if and only if no value in the header has a line
end within (`Response.framed_iff`). Nothing refuses such values, so that one of them can add a line
of its own (`Response.not_framed`).
-/

set_option autoImplicit false

namespace Stencil

/-! ## Texts without line ends -/

/-- No carriage return of a text has a line feed behind it. Either character alone may stand in it:
a recipient looks for the two together. -/
def Unbroken (text : String) : Prop := Apart '\r' '\n' text.toList

instance (text : String) : Decidable (Unbroken text) :=
  inferInstanceAs (Decidable (Apart _ _ _))

theorem unbroken_append_iff {s t : String}
    (h : s.toList.getLast? ≠ some '\r' ∨ t.toList.head? ≠ some '\n') :
    Unbroken (s ++ t) ↔ Unbroken s ∧ Unbroken t := by
  rw [Unbroken, String.toList_append]
  refine apart_append_iff fun x hx y hy hxy => ?_
  obtain ⟨rfl, rfl⟩ := hxy
  exact h.elim (fun hne => hne hx) fun hne => hne hy

theorem unbroken_integerText (n : Int) : Unbroken (integerText n) := by
  refine apart_of_not_mem ?_
  rw [integerText, String.toList_ofList, integerChars]
  intro hmem
  rcases List.mem_append.1 hmem with hmem | hmem
  · split at hmem
    · exact absurd (List.mem_singleton.1 hmem) (by decide)
    · exact nomatch hmem
  · exact absurd (Nat.isDigit_of_mem_toDigits (by decide) (by decide) hmem) (by decide)

theorem unbroken_label_iff {label : String} (h : Unbroken label)
    (hlast : label.toList.getLast? ≠ some '\r') (text : String) :
    Unbroken (label ++ text) ↔ Unbroken text := by
  rw [unbroken_append_iff (.inl hlast), and_iff_right h]

theorem unbroken_parts_iff (parts : List String) :
    Unbroken ("; ".intercalate parts) ↔ ∀ part ∈ parts, Unbroken part := by
  induction parts with
  | nil => simp [Unbroken, Apart]
  | cons part parts ih =>
    cases parts with
    | nil => simp
    | cons next parts =>
      rw [String.intercalate_cons_cons, String.append_assoc, unbroken_append_iff (.inr (by simp)),
        unbroken_label_iff (by decide) (by decide), ih]
      exact List.forall_mem_cons.symm

/-! ## Values in a header -/

def Cookie.values (c : Cookie) : List String :=
  let pair := match c.name, c.value with
    | some name, some value => [name, value]
    | _, _ => []
  pair ++ (c.domain.map Raw.display).toList ++ (c.path.map Raw.display).toList

theorem unbroken_attribute_iff {label : String} (h : Unbroken label)
    (hlast : label.toList.getLast? ≠ some '\r') (value : Option Raw) :
    (∀ part ∈ (value.map (label ++ ·.display)).toList, Unbroken part) ↔
      ∀ v ∈ (value.map Raw.display).toList, Unbroken v := by
  cases value with
  | none => simp
  | some raw => simp [unbroken_label_iff h hlast]

theorem Cookie.unbroken_headerValue_iff (c : Cookie) :
    Unbroken c.headerValue ↔ ∀ v ∈ c.values, Unbroken v := by
  have hpair (name value : String) :
      Unbroken (name ++ "=\"" ++ value ++ "\"") ↔ Unbroken name ∧ Unbroken value := by
    rw [unbroken_append_iff (.inr (by decide)), unbroken_append_iff (.inl (by simp)),
      unbroken_append_iff (.inr (by decide)), and_iff_left (show Unbroken "\"" by decide),
      and_iff_left (show Unbroken "=\"" by decide)]
  have hage (n : Int) : Unbroken ("Max-Age=" ++ integerText n) :=
    (unbroken_label_iff (by decide) (by decide) _).2 (unbroken_integerText n)
  obtain ⟨name, value, maxAge, domain, path⟩ := c
  rw [headerValue, unbroken_parts_iff]
  simp only [parts, values, List.forall_mem_append,
    unbroken_attribute_iff (show Unbroken "Domain=" by decide) (by decide),
    unbroken_attribute_iff (show Unbroken "Path=" by decide) (by decide)]
  rw [and_iff_left (by decide), and_iff_left ?_]
  · cases name <;> cases value <;> simp [hpair]
  · cases maxAge <;> simp [hage]

namespace Response

/-- The texts that a header is made of, apart from numbers. Whoever sets up a response chooses them;
what stands around them is fixed. -/
def headerValues (r : Response) : List String :=
  [r.statusText, r.mimeType] ++
    (if "text/".toList.isPrefixOf r.mimeType.toList then [r.encoding.name] else []) ++
    r.cookies.flatMap Cookie.values

theorem unbroken_statusLine_iff (code : Int) (text : String) :
    Unbroken ("HTTP/1.1 " ++ integerText code ++ " " ++ text) ↔ Unbroken text := by
  rw [String.append_assoc, String.append_assoc, unbroken_label_iff (by decide) (by decide),
    unbroken_append_iff (.inr (by simp)), unbroken_label_iff (by decide) (by decide)]
  exact and_iff_right (unbroken_integerText code)

theorem unbroken_contentType_iff (r : Response) :
    Unbroken r.contentType ↔ Unbroken r.mimeType ∧
      ∀ v ∈ if "text/".toList.isPrefixOf r.mimeType.toList then [r.encoding.name] else [],
        Unbroken v := by
  unfold contentType
  rw [String.append_assoc, unbroken_label_iff (by decide) (by decide)]
  split
  · rw [unbroken_append_iff (.inr (by simp)), unbroken_label_iff (by decide) (by decide),
      List.forall_mem_singleton]
  · simp

/-- What stands around the values keeps them apart, so that line ends can only stand within one:
nothing around them ends in a carriage return or begins with a line feed. -/
theorem unbroken_headerLines_iff (r : Response) :
    (∀ line ∈ r.headerLines, Unbroken line) ↔ ∀ v ∈ r.headerValues, Unbroken v := by
  have hcookies : (∀ line ∈ r.cookies.map ("Set-Cookie: " ++ ·.headerValue), Unbroken line) ↔
      ∀ v ∈ r.cookies.flatMap Cookie.values, Unbroken v := by
    rw [List.forall_mem_map, List.forall_mem_flatMap]
    refine forall₂_congr fun c _ => ?_
    rw [unbroken_label_iff (by decide) (by decide), c.unbroken_headerValue_iff]
  rw [headerLines, List.forall_mem_append, List.forall_mem_cons, List.forall_mem_singleton,
    unbroken_statusLine_iff, unbroken_contentType_iff, hcookies, headerValues,
    List.forall_mem_append, List.forall_mem_append, List.forall_mem_cons,
    List.forall_mem_singleton]
  simp only [and_assoc]

/-! ## What a recipient finds -/

/-- A recipient finds the lines of the header, one for the status, one for the media type and one
for each cookie, and behind them the body. -/
def Framed (r : Response) (body : List UInt8) : Prop :=
  ∃ head, splitHead r.stream.toList = some (head, body) ∧
    (splitLines head).map some = r.headerLines.map (Charset.encode? .latin1)

def lineBytes (r : Response) : List (List UInt8) :=
  r.headerLines.map fun line => line.toList.map Charset.latin1Byte

theorem exists_lineBytes_eq_cons (r : Response) :
    ∀ line ∈ r.lineBytes, ∃ c rest, line = c :: rest ∧ c ≠ 13 := by
  have hline (label text : String) {c : Char} {cs : List Char} (hlabel : label.toList = c :: cs)
      (hc : Charset.latin1Byte c ≠ 13) : ∃ c rest,
        (label ++ text).toList.map Charset.latin1Byte = c :: rest ∧ c ≠ 13 := by
    rw [String.toList_append, hlabel]
    exact ⟨_, _, rfl, hc⟩
  intro line hmem
  obtain ⟨text, htext, rfl⟩ := List.mem_map.1 hmem
  rcases List.mem_append.1 htext with htext | htext
  · rcases List.mem_cons.1 htext with rfl | htext
    · rw [String.append_assoc, String.append_assoc]
      exact hline "HTTP/1.1 " _ rfl (by decide)
    · rw [List.mem_singleton.1 htext]
      unfold contentType
      rw [String.append_assoc]
      exact hline "Content-Type: " _ rfl (by decide)
  · obtain ⟨c, -, rfl⟩ := List.mem_map.1 htext
    exact hline "Set-Cookie: " _ rfl (by decide)

theorem forall_headerLines_lt {r : Response} (h : ∀ c ∈ r.header.toList, c.toNat < 0x100) :
    ∀ line ∈ r.headerLines, ∀ c ∈ line.toList, c.toNat < 0x100 := by
  intro line hline c hc
  refine h c ?_
  rw [header, String.toList_append, String.toList_intercalate]
  exact List.mem_append_left _ (mem_intercalate (List.mem_map_of_mem hline) hc)

theorem map_latin1Byte_header (r : Response) : r.header.toList.map Charset.latin1Byte =
    [13, 10].intercalate r.lineBytes ++ [13, 10, 13, 10] := by
  rw [header, String.toList_append, String.toList_intercalate, List.map_append,
    map_intercalate, List.map_map]
  rfl

theorem framed_iff_of_header {r : Response} {header body : List UInt8}
    (hheader : Charset.encode? .latin1 r.header = some header)
    (hstream : r.stream.toList = header ++ body) :
    r.Framed body ↔ ∀ v ∈ r.headerValues, Unbroken v := by
  obtain ⟨hchars, rfl⟩ := Charset.encode?_latin1_eq_some_iff.1 hheader
  have hlines := forall_headerLines_lt hchars
  have hencoded : r.headerLines.map (Charset.encode? .latin1) = r.lineBytes.map some := by
    rw [lineBytes, List.map_map]
    refine List.map_congr_left fun line hline => ?_
    exact Charset.encode?_latin1_eq_some_iff.2 ⟨hlines line hline, rfl⟩
  have hbytes : r.header.toList.map Charset.latin1Byte ++ body =
      [13, 10].intercalate r.lineBytes ++ 13 :: 10 :: 13 :: 10 :: body := by
    rw [map_latin1Byte_header, List.append_assoc]
    rfl
  have happart : (∀ line ∈ r.lineBytes, Apart 13 10 line) ↔
      ∀ line ∈ r.headerLines, Unbroken line := by
    rw [lineBytes, List.forall_mem_map]
    exact forall₂_congr fun line hline => Charset.apart_map_latin1Byte_iff (hlines line hline)
  have hne : r.lineBytes ≠ [] := by simp [lineBytes, headerLines]
  rw [← unbroken_headerLines_iff, ← happart, ← splits_iff hne r.exists_lineBytes_eq_cons body,
    Framed, hstream, hencoded, hbytes]
  simp only [List.map_inj_right (fun _ _ => Option.some.inj)]

end Response

/-- Once a header is sent, a recipient finds its lines and behind them the data of the writes that
succeeded if and only if no value in the header has a line end within. -/
theorem Response.framed_iff (limit : Nat) (scopes : Scopes) (cookies : List Cookie)
    (ops : List Response.Op) :
    let j := (Journal.start scopes cookies).performAll limit ops
    let r := (start scopes cookies).performAll limit ops
    r.headerSent = true → (r.Framed j.written.flatten ↔ ∀ v ∈ r.headerValues, Unbroken v) := by
  intro j r hsent
  have hresponse : j.response = r := Journal.response_performAll limit _ ops
  have hsound : j.Sound := (Journal.Sound.unsent rfl rfl).performAll limit ops
  clear_value j
  rw [← hresponse] at hsent ⊢
  cases hsound with
  | unsent hunsent _ => exact absurd hsent (by simp [hunsent])
  | sent _ _ hheader hstream hsettings =>
    rw [← header_eq_of_settings hsettings] at hheader
    exact framed_iff_of_header hheader hstream

/-- A carriage return at the end of the status does no harm. The line end behind it begins with
another one, and two of them end no line. -/
theorem Response.framed_iff_carriage_return :
    let ops : List Op :=
      [.setStatusText "Gone\r", .addCookie ⟨some "a", some "b", none, none, none⟩, .write "c"]
    let r := (start (.start .empty .empty) []).performAll 1 ops
    r.headerSent = true ∧ r.Framed [99] := by
  intro ops r
  have hsent : r.headerSent = true := by decide +kernel
  have hwritten :
      ((Journal.start (.start .empty .empty) []).performAll 1 ops).written = [[99]] := by
    decide +kernel
  have hframed := framed_iff 1 (.start .empty .empty) [] ops hsent
  rw [hwritten] at hframed
  exact ⟨hsent, hframed.2 (by decide +kernel)⟩

/-- A status with a line end within makes three lines where the header has two. The status is not
refused: it is taken as it is given, and written so. -/
theorem Response.not_framed :
    let ops : List Op := [.setStatusText "OK\r\nX: y", .write "a"]
    let r := (start (.start .empty .empty) []).performAll 1 ops
    r.headerSent = true ∧
      ((Journal.start (.start .empty .empty) []).performAll 1 ops).written.flatten = [97] ∧
      r.headerLines.length = 2 ∧
      (∃ head, splitHead r.stream.toList = some (head, [97]) ∧ (splitLines head).length = 3) ∧
      ¬ r.Framed [97] := by
  intro ops r
  let head :=
    "HTTP/1.1 200 OK\r\nX: y\r\nContent-Type: text/html; charset=UTF-8".toList.map
      Charset.latin1Byte
  have hsplit : splitHead r.stream.toList = some (head, [97]) := by decide +kernel
  have hthree : (splitLines head).length = 3 := by decide +kernel
  have htwo : r.headerLines.length = 2 := by decide +kernel
  refine ⟨by decide +kernel, by decide +kernel, htwo, ⟨head, hsplit, hthree⟩, ?_⟩
  rintro ⟨head', hsplit', hlines⟩
  obtain ⟨rfl, -⟩ := Prod.mk.inj (Option.some.inj (hsplit.symm.trans hsplit'))
  have hlength := congrArg List.length hlines
  rw [List.length_map, List.length_map, hthree, htwo] at hlength
  exact absurd hlength (by decide)

end Stencil
