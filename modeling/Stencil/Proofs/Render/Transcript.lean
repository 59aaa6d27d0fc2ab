import Stencil.Proofs.Render.Journal
import Stencil.Proofs.Text.Charset

/-!
# What a recipient reads

A transcript goes along with a journal and notes the texts of the writes that succeeded. A recipient
who decodes what stands behind the header, in the character set that the response names, reads these
texts put together, unless the set puts marks between them (`Response.performAll_reads`). That is
because the encoding of a response can not change between two writes, and because its name is always
the one that it was found by.
-/

set_option autoImplicit false

namespace Stencil

namespace Response

def Op.isTextual : Op → Bool
  | .writeBytes _ => false
  | _ => true

/-! ## The name of the encoding -/

/-- A recipient finds the character set of the encoding by its name. The name is all that a header
tells of the set. -/
def Named (r : Response) : Prop := Charset.ofName? r.encoding.name = some r.encoding.charset

theorem named_start (scopes : Scopes) (cookies : List Cookie) : (start scopes cookies).Named := by
  show Charset.ofName? "UTF-8" = some .utf8
  decide +kernel

theorem keeps_named_setEncoding (name : String) : Keeps Named (·.setEncoding name) := by
  intro r r' _ h
  obtain ⟨encoding, hencoding, rfl⟩ := exists_of_setEncoding h
  obtain ⟨s, hs, rfl⟩ := Option.map_eq_some_iff.1 hencoding
  exact hs

theorem keeps_named_setStatusCode (code : Int) : Keeps Named (·.setStatusCode code) :=
  .of_map fun _ h => h

theorem keeps_named_setStatusText (text : String) : Keeps Named (·.setStatusText text) :=
  .of_map fun _ h => h

theorem keeps_named_setMimeType (mimeType : String) : Keeps Named (·.setMimeType mimeType) :=
  .of_map fun _ h => h

theorem keeps_named_addCookie (cookie : Cookie) : Keeps Named (·.addCookie cookie) :=
  .of_map fun _ h => h

theorem keeps_named_changes (profile : Profile) :
    ∀ change ∈ profile.changes, Keeps Named change := by
  intro change hmem
  simp only [Profile.changes, List.cons_append, List.nil_append, List.mem_cons,
    List.mem_map] at hmem
  rcases hmem with rfl | rfl | rfl | rfl | ⟨cookie, -, rfl⟩
  · exact keeps_named_setEncoding _
  · exact keeps_named_setMimeType _
  · exact keeps_named_setStatusCode _
  · exact keeps_named_setStatusText _
  · exact keeps_named_addCookie _

theorem named_perform_of_isSetup {op : Op} (hop : op.isSetup = true) (limit : Nat) {r : Response}
    (h : r.Named) : (r.perform limit op).response.Named := by
  cases op with
  | setEncoding name => exact (keeps_named_setEncoding name).change h
  | setStatusCode code => exact (keeps_named_setStatusCode code).change h
  | setStatusText text => exact (keeps_named_setStatusText text).change h
  | setMimeType mimeType => exact (keeps_named_setMimeType mimeType).change h
  | addCookie cookie => exact (keeps_named_addCookie cookie).change h
  | apply profile => exact Keeps.changeAll (keeps_named_changes profile) h
  | write text => exact absurd hop (by simp [Op.isSetup])
  | writeBytes bytes => exact absurd hop (by simp [Op.isSetup])
  | render template => exact absurd hop (by simp [Op.isSetup])

/-! ## Writing -/

theorem encoding_deliver (r : Response) (data : Option (List UInt8)) :
    (r.deliver data).2.encoding = r.encoding := by
  rw [deliver]
  cases hr : r.sendHeader with
  | error fault => rfl
  | ok r' =>
    have hencoding := congrArg Settings.encoding (settings_of_sendHeader hr)
    cases data <;> exact hencoding

theorem exists_of_deliver_ok {r : Response} {data : Option (List UInt8)}
    (h : (r.deliver data).1 = .ok ()) : ∃ bytes, data = some bytes := by
  rw [deliver] at h
  cases hr : r.sendHeader with
  | error fault =>
    rw [hr] at h
    exact absurd h (by simp)
  | ok r' =>
    rw [hr] at h
    cases data with
    | none => exact absurd h (by simp)
    | some bytes => exact ⟨bytes, rfl⟩

end Response

open Response (Op)

/-- A journal, and the texts of the writes that succeeded, in order. The journal has their data
already; the texts are noted to say that the data can be read as them. -/
structure Transcript where
  journal : Journal
  texts : List String

namespace Transcript

def start (scopes : Scopes) (cookies : List Cookie) : Transcript := ⟨.start scopes cookies, []⟩

def write (t : Transcript) (text : String) : Except SinkFault Unit × Transcript :=
  let (answer, journal) := Sink.write t.journal text
  (answer,
    { journal
      texts := match answer with
        | .ok () => t.texts ++ [text]
        | .error _ => t.texts })

instance : Sink Transcript where
  write := write
  setMimeType t mimeType := (Sink.setMimeType t.journal mimeType).map ({ t with journal := · })
  scopes t := Sink.scopes t.journal
  withScopes t scopes := { t with journal := Sink.withScopes t.journal scopes }

def perform (limit : Nat) (t : Transcript) : Op → Transcript
  | .write text => (t.write text).2
  | .render template =>
    match Stencil.render limit template t with
    | .error _ => t
    | .ok (_, run) => run.sink
  | op => { t with journal := t.journal.perform limit op }

def performAll (limit : Nat) (t : Transcript) (ops : List Op) : Transcript :=
  ops.foldl (perform limit) t

/-! ## The journal of a transcript -/

theorem setMimeType_eq (t : Transcript) (mimeType : String) :
    Sink.setMimeType t mimeType =
      (Sink.setMimeType t.journal mimeType).map ({ t with journal := · }) := rfl

theorem eq_of_setMimeType {t t' : Transcript} {mimeType : String}
    (h : Sink.setMimeType t mimeType = .ok t') :
    t' = { t with
      journal := { t.journal with
        response :=
          (t.journal.response.change (t.journal.response.setMimeType mimeType)).response } } := by
  rw [setMimeType_eq] at h
  obtain ⟨j, hj, rfl⟩ := map_eq_ok_iff.1 h
  rw [← Journal.eq_of_setMimeType hj]

theorem sinkMap_journal : SinkMap Transcript.journal where
  write _ _ := rfl
  setMimeType t mimeType := by
    rw [setMimeType_eq]
    cases Sink.setMimeType t.journal mimeType <;> rfl
  scopes _ := rfl
  withScopes _ _ := rfl

theorem journal_perform (limit : Nat) (t : Transcript) (op : Op) :
    (t.perform limit op).journal = t.journal.perform limit op := by
  cases op with
  | render template =>
    rw [perform, Journal.perform, render_map sinkMap_journal]
    rcases Stencil.render limit template t with _ | ⟨ending, run⟩ <;> rfl
  | _ => rfl

theorem journal_performAll (limit : Nat) (t : Transcript) (ops : List Op) :
    (t.performAll limit ops).journal = t.journal.performAll limit ops := by
  induction ops generalizing t with
  | nil => rfl
  | cons op ops ih =>
    show ((t.perform limit op).performAll limit ops).journal = _
    rw [ih, journal_perform]
    rfl

/-! ## What a transcript accounts for -/

/-- The texts are those that were written to the data of the journal, in the encoding that the
response names. -/
structure Faithful (t : Transcript) : Prop where
  sound : t.journal.Sound
  named : t.journal.response.Named
  pieces : t.journal.response.encoding.charset.Pieces t.texts t.journal.written

namespace Faithful

variable {t : Transcript}

theorem write (h : t.Faithful) (text : String) : (t.write text).2.Faithful := by
  let r := t.journal.response
  have hencoding : (r.deliver (r.encode? text)).2.encoding = r.encoding :=
    Response.encoding_deliver r _
  refine ⟨h.sound.deliver _, ?_, ?_⟩
  · show (r.deliver (r.encode? text)).2.Named
    rw [Response.Named, hencoding]
    exact h.named
  · show Charset.Pieces (r.deliver (r.encode? text)).2.encoding.charset
      (match (r.deliver (r.encode? text)).1 with
        | .ok () => t.texts ++ [text]
        | .error _ => t.texts)
      (match (r.deliver (r.encode? text)).1 with
        | .ok () => t.journal.written ++ (r.encode? text).toList
        | .error _ => t.journal.written)
    rw [hencoding]
    -- Text and data are noted under the same answer: both lists grow, or none does.
    cases hanswer : (r.deliver (r.encode? text)).1 with
    | error fault => exact h.pieces
    | ok _ =>
      obtain ⟨bytes, hbytes⟩ := Response.exists_of_deliver_ok hanswer
      rw [hbytes]
      exact List.rel_append h.pieces (.cons hbytes .nil)

theorem setup (h : t.Faithful) {p : Response.Performed} (hp : t.journal.response.SetsUp p)
    (hnamed : p.response.Named) :
    Faithful { t with journal := { t.journal with response := p.response } } := by
  refine ⟨h.sound.setup hp, hnamed, ?_⟩
  cases hsent : t.journal.response.headerSent with
  | true =>
    rw [hp.kept hsent]
    exact h.pieces
  | false =>
    -- The encoding may be another one now, but there is nothing yet that the old one wrote.
    have hwritten : t.journal.written = [] := h.sound.written_of_unsent hsent
    have htexts : t.texts = [] := List.forall₂_nil_right_iff.1 (hwritten ▸ h.pieces)
    show Charset.Pieces _ t.texts t.journal.written
    rw [hwritten, htexts]
    exact .nil

theorem sinkInvariant : SinkInvariant Faithful where
  write _ h text := h.write text
  setMimeType t h mimeType t' hset := by
    rw [eq_of_setMimeType hset]
    exact h.setup ((Response.totalSetter_setMimeType mimeType).setsUp _)
      ((Response.keeps_named_setMimeType mimeType).change h.named)
  withScopes _ h _ := ⟨Journal.Sound.sinkInvariant.withScopes _ h.sound _, h.named, h.pieces⟩

theorem perform (h : t.Faithful) (limit : Nat) {op : Op} (hop : op.isTextual = true) :
    (t.perform limit op).Faithful := by
  cases op with
  | write text => exact h.write text
  | writeBytes bytes => exact absurd hop (by simp [Op.isTextual])
  | render template =>
    rw [Transcript.perform]
    rcases hrun : Stencil.render limit template t with _ | ⟨ending, run⟩
    · exact h
    · exact sinkInvariant.render h hrun
  | _ =>
    exact h.setup (Response.setsUp_perform rfl limit _)
      (Response.named_perform_of_isSetup rfl limit h.named)

theorem performAll (h : t.Faithful) (limit : Nat) {ops : List Op}
    (hops : ∀ op ∈ ops, op.isTextual = true) : (t.performAll limit ops).Faithful := by
  induction ops generalizing t with
  | nil => exact h
  | cons op ops ih =>
    obtain ⟨hop, hops⟩ := List.forall_mem_cons.1 hops
    exact ih (h.perform limit hop) hops

end Faithful

end Transcript

/-- After any operations that send texts alone, failing ones among them, the header comes first. In
the character set that the response names, the bytes behind it are the texts of the writes that
succeeded, with the set's own marks in between: just these texts put together, unless the set has
marks and there are two texts or more. -/
theorem Response.performAll_reads (limit : Nat) (scopes : Scopes) (cookies : List Cookie)
    (ops : List Op) (hops : ∀ op ∈ ops, op.isTextual = true) :
    let t := (Transcript.start scopes cookies).performAll limit ops
    let r := (start scopes cookies).performAll limit ops
    t.journal.response = r ∧
      (r.headerSent = false → r.stream = #[] ∧ t.texts = []) ∧
      (r.headerSent = true → ∃ header body s,
        Charset.encode? .latin1 r.header = some header ∧ r.stream.toList = header ++ body ∧
        Charset.ofName? r.encoding.name = some s ∧
        s.decode? body = some (s.between.intercalate t.texts) ∧
        (s.decode? body = some (String.join t.texts) ↔ s ≠ .utf16 ∨ t.texts.length ≤ 1)) := by
  intro t r
  have hresponse : t.journal.response = r :=
    (congrArg Journal.response (Transcript.journal_performAll limit _ ops)).trans
      (Journal.response_performAll limit _ ops)
  have hstart : (Transcript.start scopes cookies).Faithful :=
    ⟨.unsent rfl rfl, Response.named_start scopes cookies, .nil⟩
  have hfaithful : t.Faithful := hstart.performAll limit hops
  refine ⟨hresponse, fun hsent => ?_, fun hsent => ?_⟩
  · obtain ⟨hsound, -, hpieces⟩ := hfaithful
    rw [← hresponse] at hsent ⊢
    rw [hsound.written_of_unsent hsent] at hpieces
    exact ⟨hsound.stream_of_unsent hsent, List.forall₂_nil_right_iff.1 hpieces⟩
  · obtain ⟨hsound, hnamed, hpieces⟩ := hfaithful
    rw [← hresponse] at hsent ⊢
    obtain ⟨header, hheader, hstream⟩ := hsound.exists_header hsent
    have hdecode := Charset.decode?_flatten hpieces
    refine ⟨header, _, _, hheader, hstream, hnamed, hdecode, ?_⟩
    rw [hdecode, Option.some.injEq]
    exact Charset.intercalate_between_eq_join_iff t.texts

/-- A text and a template are written in four pieces to the second Latin set. Both letters with a
hook have one byte there, and the first Latin set has neither. -/
theorem Response.performAll_reads_latin2 :
    let ops : List Op := [.setEncoding "ISO-8859-2", .write "š", .render "ž\x7b$= 1 2 $\x7d"]
    let r := (start (.start .empty .empty) []).performAll 1 ops
    (∀ op ∈ ops, op.isTextual = true) ∧ r.headerSent = true ∧
      ∃ header body, Charset.encode? .latin1 r.header = some header ∧
        r.stream.toList = header ++ body ∧ Charset.ofName? r.encoding.name = some .latin2 ∧
        Charset.decode? .latin2 body = some "šž12" := by
  intro ops r
  have hops : ∀ op ∈ ops, op.isTextual = true := by simp [ops, Op.isTextual]
  have hsent : r.headerSent = true := by decide +kernel
  have hname : Charset.ofName? r.encoding.name = some .latin2 := by decide +kernel
  have htexts : ((Transcript.start (.start .empty .empty) []).performAll 1 ops).texts =
      ["š", "ž", "1", "2"] := by
    decide +kernel
  obtain ⟨-, -, hreads⟩ := performAll_reads 1 (.start .empty .empty) [] ops hops
  obtain ⟨header, body, s, hheader, hstream, hs, -, hjoin⟩ := hreads hsent
  obtain rfl : s = .latin2 := Option.some.inj (hs.symm.trans hname)
  rw [htexts] at hjoin
  exact ⟨hops, hsent, header, body, hheader, hstream, hname, hjoin.2 (.inl (by decide))⟩

/-- In the set with marks, a mark stands between the two texts. Each text is encoded by itself and
gets a mark of its own, of which only the first is taken off by reading. -/
theorem Response.not_performAll_reads :
    let ops : List Op := [.setEncoding "utf-16", .write "a", .write "b"]
    let t := (Transcript.start (.start .empty .empty) []).performAll 1 ops
    let r := (start (.start .empty .empty) []).performAll 1 ops
    t.texts = ["a", "b"] ∧
      (∃ header body, Charset.encode? .latin1 r.header = some header ∧
        r.stream.toList = header ++ body ∧ Charset.ofName? r.encoding.name = some .utf16 ∧
        Charset.decode? .utf16 body = some "a\ufeffb") ∧
      "a\ufeffb" ≠ String.join t.texts := by
  intro ops t r
  have htexts : t.texts = ["a", "b"] := by decide +kernel
  let j := (Journal.start (.start .empty .empty) []).performAll 1 ops
  have hresponse : j.response = r := Journal.response_performAll 1 _ ops
  have hsent : j.response.headerSent = true := by decide +kernel
  have hwritten : j.written = [[0xff, 0xfe, 0x61, 0], [0xff, 0xfe, 0x62, 0]] := by decide +kernel
  have hsound : j.Sound := (Journal.Sound.unsent rfl rfl).performAll 1 ops
  obtain ⟨header, hheader, hstream⟩ := hsound.exists_header hsent
  rw [hresponse] at hheader hstream
  refine ⟨htexts, ⟨header, j.written.flatten, hheader, hstream, by decide +kernel, ?_⟩, ?_⟩
  · rw [hwritten]
    decide +kernel
  · rw [htexts]
    decide

end Stencil
