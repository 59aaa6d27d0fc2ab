import Stencil.Proofs.Render.SinkMap
import Stencil.Proofs.Text.Lines
import Stencil.Render.Session

/-!
# What a response sends

A journal goes along with a response and notes two things: the response at the write that sent the
header, and the data of the writes that succeeded. It has no say in what happens
(`Journal.response_perform`), so what it accounts for, it accounts for in every session: the stream
is empty as long as no header is sent, and then it is that header and that data
(`Response.performAll_sound`).
-/

set_option autoImplicit false

namespace Stencil

namespace Response

structure Settings where
  encoding : Encoding
  statusCode : Int
  statusText : String
  mimeType : String
  cookies : List Cookie

def settings (r : Response) : Settings :=
  ⟨r.encoding, r.statusCode, r.statusText, r.mimeType, r.cookies⟩

/-- The response that is left by operations in turn, whether or not they fail. -/
def performAll (limit : Nat) (r : Response) (ops : List Op) : Response :=
  ops.foldl (fun r op => (r.perform limit op).response) r

/-! ## Setting up -/

def Op.isSetup : Op → Bool
  | .write _ | .writeBytes _ | .render _ => false
  | _ => true

/-- A change is refused once the header is sent, and it sends nothing. All five setters are changes
like this, and a profile is a list of them. -/
structure Setter (change : Response → Except SinkFault Response) : Prop where
  refused : ∀ r, r.headerSent = true → change r = .error .headerSent
  headerSent : ∀ r r', change r = .ok r' → r'.headerSent = r.headerSent
  stream : ∀ r r', change r = .ok r' → r'.stream = r.stream

theorem Setter.unsent {change : Response → Except SinkFault Response} (h : Setter change)
    {r r' : Response} (hr : change r = .ok r') : r.headerSent = false := by
  rw [← Bool.not_eq_true]
  intro hsent
  rw [h.refused r hsent] at hr
  exact absurd hr (by simp)

/-- A change that nothing but a sent header refuses. -/
structure TotalSetter (change : Response → Except SinkFault Response) : Prop
    extends Setter change where
  accepted : ∀ r, r.headerSent = false → ∃ r', change r = .ok r'

theorem TotalSetter.of_map {f : Response → Response}
    (hsent : ∀ r, (f r).headerSent = r.headerSent) (hstream : ∀ r, (f r).stream = r.stream) :
    TotalSetter fun r => r.open?.map f := by
  refine ⟨⟨fun r hr => ?_, fun r r' h => ?_, fun r r' h => ?_⟩, fun r hr => ?_⟩
  · rw [open?_of_sent hr]
    rfl
  · rw [eq_of_map_open? h, hsent]
  · rw [eq_of_map_open? h, hstream]
  · exact ⟨f r, by rw [open?_of_unsent hr]; rfl⟩

theorem totalSetter_setStatusCode (code : Int) : TotalSetter (·.setStatusCode code) :=
  .of_map (fun _ => rfl) fun _ => rfl

theorem totalSetter_setStatusText (text : String) : TotalSetter (·.setStatusText text) :=
  .of_map (fun _ => rfl) fun _ => rfl

theorem totalSetter_setMimeType (mimeType : String) : TotalSetter (·.setMimeType mimeType) :=
  .of_map (fun _ => rfl) fun _ => rfl

theorem totalSetter_addCookie (cookie : Cookie) : TotalSetter (·.addCookie cookie) :=
  .of_map (fun _ => rfl) fun _ => rfl

theorem exists_of_setEncoding {name : String} {r r' : Response} (h : r.setEncoding name = .ok r') :
    ∃ encoding, Encoding.ofName? name = some encoding ∧ r' = { r with encoding } := by
  by_cases hr : r.headerSent = true
  · simp only [setEncoding, open?_of_sent hr, bind, Except.bind] at h
    exact absurd h (by simp)
  · simp only [setEncoding, open?_of_unsent (by simpa using hr), bind, Except.bind] at h
    split at h
    · exact absurd h (by simp)
    · split at h
      · rename_i encoding hencoding
        exact ⟨encoding, hencoding, (Except.ok.inj h).symm⟩
      · exact absurd h (by simp)

theorem setter_setEncoding (name : String) : Setter (·.setEncoding name) := by
  refine ⟨fun r hr => ?_, fun r r' h => ?_, fun r r' h => ?_⟩
  · simp only [setEncoding, open?_of_sent hr, bind, Except.bind]
  · obtain ⟨encoding, -, rfl⟩ := exists_of_setEncoding h
    rfl
  · obtain ⟨encoding, -, rfl⟩ := exists_of_setEncoding h
    rfl

section

variable {P : Response → Prop} {r : Response}

/-- A property of the response that a change leaves, if it is not refused. -/
def Keeps (P : Response → Prop) (change : Response → Except SinkFault Response) : Prop :=
  ∀ r r', P r → change r = .ok r' → P r'

theorem Keeps.of_map {f : Response → Response} (h : ∀ r, P r → P (f r)) :
    Keeps P fun r => r.open?.map f := by
  intro r r' hr hchange
  rw [eq_of_map_open? hchange]
  exact h r hr

theorem Keeps.change {change : Response → Except SinkFault Response} (h : Keeps P change)
    (hr : P r) : P (r.change (change r)).response := by
  cases hchange : change r with
  | error fault => exact hr
  | ok r' => exact h r r' hr hchange

theorem Keeps.changeAll {changes : List (Response → Except SinkFault Response)}
    (h : ∀ change ∈ changes, Keeps P change) (hr : P r) : P (r.changeAll changes).2 := by
  induction changes generalizing r with
  | nil => exact hr
  | cons change rest ih =>
    obtain ⟨hchange, hrest⟩ := List.forall_mem_cons.1 h
    rw [Response.changeAll]
    cases hfirst : change r with
    | error fault => exact hr
    | ok r' => exact ih hrest (hchange r r' hr hfirst)

end

theorem Setter.keeps {change : Response → Except SinkFault Response} (h : Setter change)
    (r : Response) :
    Keeps (fun r' => r'.headerSent = r.headerSent ∧ r'.stream = r.stream) change :=
  fun r₁ r₂ hr hchange =>
    ⟨(h.headerSent r₁ r₂ hchange).trans hr.1, (h.stream r₁ r₂ hchange).trans hr.2⟩

section

variable {changes : List (Response → Except SinkFault Response)}

theorem changeAll_sends (h : ∀ change ∈ changes, Setter change) (r : Response) :
    (r.changeAll changes).2.headerSent = r.headerSent ∧
      (r.changeAll changes).2.stream = r.stream :=
  Keeps.changeAll (fun change hmem => (h change hmem).keeps r) ⟨rfl, rfl⟩

theorem changeAll_of_unsent (h : ∀ change ∈ changes, TotalSetter change) {r : Response}
    (hr : r.headerSent = false) : (r.changeAll changes).1 = .ok () := by
  induction changes generalizing r with
  | nil => rfl
  | cons change rest ih =>
    obtain ⟨hchange, hrest⟩ := List.forall_mem_cons.1 h
    obtain ⟨r', hr'⟩ := hchange.accepted r hr
    rw [changeAll, hr']
    exact ih hrest ((hchange.headerSent r r' hr').trans hr)

/-- Only the first of several changes can be refused, if the others can not but for the header.
Whether that has been sent is the same for all of them, since no change sends it. -/
theorem changeAll_eq_of_error {change : Response → Except SinkFault Response}
    (h : Setter change) (hrest : ∀ change ∈ changes, TotalSetter change) {r : Response}
    {fault : SinkFault} (hfault : (r.changeAll (change :: changes)).1 = .error fault) :
    (r.changeAll (change :: changes)).2 = r := by
  rw [changeAll] at hfault ⊢
  cases hr : change r with
  | error fault => rfl
  | ok r' =>
    -- The first change was accepted, so no header is sent, and then the others are accepted too.
    have hsent : r'.headerSent = false := (h.headerSent r r' hr).trans (h.unsent hr)
    rw [hr] at hfault
    exact absurd ((changeAll_of_unsent hrest hsent).symm.trans hfault) (by simp)

end

structure SetsUp (r : Response) (p : Performed) : Prop where
  headerSent : p.response.headerSent = r.headerSent
  stream : p.response.stream = r.stream
  kept : r.headerSent = true → p.response = r
  failed : ∀ fault, p.answer = .error fault → p.response = r

theorem Setter.setsUp {change : Response → Except SinkFault Response} (h : Setter change)
    (r : Response) : SetsUp r (r.change (change r)) := by
  cases hr : change r with
  | error fault => exact ⟨rfl, rfl, fun _ => rfl, fun _ _ => rfl⟩
  | ok r' =>
    refine ⟨h.headerSent r r' hr, h.stream r r' hr, fun hsent => ?_, fun fault hfault => ?_⟩
    · exact absurd hsent (by simp [h.unsent hr])
    · exact absurd hfault (by simp [Response.change])

theorem setsUp_applyTo (profile : Profile) (r : Response) :
    SetsUp r (step (profile.applyTo r)) := by
  have hfirst := setter_setEncoding profile.encoding
  have hrest : ∀ change ∈ profile.changes.tail, TotalSetter change := by
    intro change hmem
    simp only [Profile.changes, List.cons_append, List.tail_cons, List.nil_append, List.mem_cons,
      List.mem_map] at hmem
    rcases hmem with rfl | rfl | rfl | ⟨cookie, -, rfl⟩
    · exact totalSetter_setMimeType _
    · exact totalSetter_setStatusCode _
    · exact totalSetter_setStatusText _
    · exact totalSetter_addCookie _
  have hall : ∀ change ∈ profile.changes, Setter change :=
    List.forall_mem_cons.2 ⟨hfirst, fun change hmem => (hrest change hmem).toSetter⟩
  obtain ⟨hsent, hstream⟩ := changeAll_sends hall r
  have hfailed : ∀ fault, (profile.applyTo r).1 = .error fault → (profile.applyTo r).2 = r :=
    fun fault => changeAll_eq_of_error hfirst hrest
  refine ⟨hsent, hstream, fun hr => ?_, fun fault hfault => ?_⟩
  · refine hfailed .headerSent ?_
    show (r.changeAll (_ :: profile.changes.tail)).1 = _
    rw [changeAll, hfirst.refused r hr]
  · cases hanswer : (profile.applyTo r).1 with
    | ok _ =>
      rw [step, hanswer] at hfault
      exact nomatch hfault
    | error fault => exact hfailed fault hanswer

theorem setsUp_perform {op : Op} (h : op.isSetup = true) (limit : Nat) (r : Response) :
    SetsUp r (r.perform limit op) := by
  cases op with
  | setEncoding name => exact (setter_setEncoding name).setsUp r
  | setStatusCode code => exact (totalSetter_setStatusCode code).setsUp r
  | setStatusText text => exact (totalSetter_setStatusText text).setsUp r
  | setMimeType mimeType => exact (totalSetter_setMimeType mimeType).setsUp r
  | addCookie cookie => exact (totalSetter_addCookie cookie).setsUp r
  | apply profile => exact setsUp_applyTo profile r
  | write text => exact absurd h (by simp [Op.isSetup])
  | writeBytes bytes => exact absurd h (by simp [Op.isSetup])
  | render template => exact absurd h (by simp [Op.isSetup])

/-! ## Writing -/

/-- Sends data behind the header, if there is some; without data the header is sent all the same.
Texts and bytes are both written like this, a text as the data that its encoding makes of it. -/
def deliver (r : Response) (data : Option (List UInt8)) : Except SinkFault Unit × Response :=
  match r.sendHeader with
  | .error e => (.error e, r)
  | .ok r =>
    match data with
    | some bytes => (.ok (), r.send bytes)
    | none => (.error .unencodable, r)

def encode? (r : Response) (text : String) : Option (List UInt8) := r.encoding.charset.encode? text

theorem sendHeader_of_sent {r : Response} (h : r.headerSent = true) : r.sendHeader = .ok r := by
  rw [sendHeader, if_pos h]

theorem sendHeader_of_unsent {r : Response} (h : r.headerSent = false) :
    r.sendHeader = .error .unencodable ∨
      ∃ header, Charset.encode? .latin1 r.header = some header ∧
        r.sendHeader = .ok { r.send header with headerSent := true } := by
  rw [sendHeader, if_neg (by simp [h])]
  cases hheader : Charset.encode? .latin1 r.header with
  | none => exact .inl rfl
  | some header => exact .inr ⟨header, rfl, rfl⟩

theorem header_eq_of_settings {r o : Response} (h : r.settings = o.settings) :
    r.header = o.header := by
  cases r
  cases o
  obtain ⟨rfl, rfl, rfl, rfl, rfl⟩ := Settings.mk.inj h
  rfl

theorem settings_of_sendHeader {r r' : Response} (h : r.sendHeader = .ok r') :
    r'.settings = r.settings := by
  cases hr : r.headerSent with
  | true =>
    rw [sendHeader_of_sent hr] at h
    rw [Except.ok.inj h]
  | false =>
    rcases sendHeader_of_unsent hr with hfault | ⟨header, -, hsent⟩
    · rw [hfault] at h
      exact absurd h (by simp)
    · rw [hsent] at h
      rw [← Except.ok.inj h]
      rfl

theorem writeBytes_eq_deliver (r : Response) (bytes : List UInt8) :
    r.writeBytes bytes = r.deliver (some bytes) := by
  unfold writeBytes deliver
  cases r.sendHeader <;> rfl

theorem write_eq_deliver (r : Response) (text : String) :
    r.write text = r.deliver (r.encode? text) := by
  unfold write deliver encode?
  cases hr : r.sendHeader with
  | error e => rfl
  | ok r' =>
    have hencoding : r'.encoding = r.encoding :=
      congrArg Settings.encoding (settings_of_sendHeader hr)
    cases hdata : r.encoding.charset.encode? text with
    | none => simp only [hencoding, hdata]
    | some bytes => simp only [hencoding, hdata]

def Committed (settings : Settings) (r : Response) : Prop :=
  r.headerSent = true ∧ r.settings = settings

namespace Committed

variable {settings : Settings} {r : Response}

theorem deliver (h : Committed settings r) (data : Option (List UInt8)) :
    Committed settings (r.deliver data).2 := by
  rw [Response.deliver, sendHeader_of_sent h.1]
  cases data <;> exact h

theorem setup (h : Committed settings r) {p : Performed} (hp : SetsUp r p) :
    Committed settings p.response := by
  rw [hp.kept h.1]
  exact h

theorem sinkInvariant : SinkInvariant (Committed settings) where
  write r h text := by
    show Committed settings (r.write text).2
    rw [write_eq_deliver]
    exact h.deliver _
  setMimeType r h mimeType r' hset :=
    absurd h.1 (by simp [(totalSetter_setMimeType mimeType).unsent hset])
  withScopes _ h _ := h

theorem perform (h : Committed settings r) (limit : Nat) (op : Op) :
    Committed settings (r.perform limit op).response := by
  cases op with
  | write text =>
    rw [Response.perform, write_eq_deliver]
    exact h.deliver (r.encode? text)
  | writeBytes bytes =>
    rw [Response.perform, writeBytes_eq_deliver]
    exact h.deliver (some bytes)
  | render template =>
    rw [Response.perform, renderInto]
    rcases hrun : Stencil.render limit template r with _ | ⟨ending, run⟩
    · exact h
    · exact sinkInvariant.render h hrun
  | _ => exact h.setup (setsUp_perform rfl limit r)

end Committed

/-! ## The header is not empty -/

theorem length_encodeChars?_latin1 {cs : List Char} {bytes : List UInt8}
    (h : Charset.encodeChars? .latin1 cs = some bytes) : bytes.length = cs.length := by
  rw [(Charset.encodeChars?_latin1_eq_some_iff.1 h).2, List.length_map]

theorem ne_nil_of_encode?_header {r : Response} {header : List UInt8}
    (h : Charset.encode? .latin1 r.header = some header) : header ≠ [] := by
  obtain ⟨bytes, hbytes, hheader⟩ := Option.map_eq_some_iff.1 h
  have hlength := length_encodeChars?_latin1 hbytes
  rintro rfl
  obtain ⟨-, rfl⟩ := List.append_eq_nil_iff.1 hheader
  rw [Response.header, String.toList_append, List.length_append] at hlength
  exact absurd hlength (by simp)

end Response

open Response (Op)

/-- A response, the response that it was at the write that sent its header, and the data of the
writes that succeeded, in order. It is a sink of its own, so that the writes of a template are noted
as well, and forgetting the notes gives the response back (`SinkMap`). -/
structure Journal where
  response : Response
  opened : Option Response
  written : List (List UInt8)

namespace Journal

def start (scopes : Scopes) (cookies : List Cookie) : Journal := ⟨.start scopes cookies, none, []⟩

/-- Sends data behind the header, and takes notes: of the settings if the header goes out with it,
and of the data if it is sent. A text that can not be encoded is no data. -/
def deliver (j : Journal) (data : Option (List UInt8)) : Except SinkFault Unit × Journal :=
  let (answer, r) := j.response.deliver data
  (answer,
    { response := r
      opened := j.opened.or (if r.headerSent then some j.response else none)
      written := match answer with
        | .ok () => j.written ++ data.toList
        | .error _ => j.written })

/-- Every write is noted, those of a template too. -/
instance : Sink Journal where
  write j text := j.deliver (j.response.encode? text)
  setMimeType j mimeType := (j.response.setMimeType mimeType).map ({ j with response := · })
  scopes j := j.response.scopes
  withScopes j scopes := { j with response := { j.response with scopes } }

theorem setMimeType_eq (j : Journal) (mimeType : String) :
    Sink.setMimeType j mimeType =
      (j.response.setMimeType mimeType).map ({ j with response := · }) := rfl

theorem eq_of_setMimeType {j j' : Journal} {mimeType : String}
    (h : Sink.setMimeType j mimeType = .ok j') :
    j' = { j with response := (j.response.change (j.response.setMimeType mimeType)).response } := by
  rw [setMimeType_eq] at h
  obtain ⟨r, hr, rfl⟩ := map_eq_ok_iff.1 h
  rw [hr]
  rfl

def perform (limit : Nat) (j : Journal) : Op → Journal
  | .write text => (j.deliver (j.response.encode? text)).2
  | .writeBytes bytes => (j.deliver (some bytes)).2
  | .render template =>
    match Stencil.render limit template j with
    | .error _ => j
    | .ok (_, run) => run.sink
  | op => { j with response := (j.response.perform limit op).response }

def performAll (limit : Nat) (j : Journal) (ops : List Op) : Journal :=
  ops.foldl (perform limit) j

/-! ## The response of a journal -/

theorem sinkMap_response : SinkMap Journal.response where
  write j text := by
    show j.response.write text = _
    rw [Response.write_eq_deliver]
    rfl
  setMimeType j mimeType := by
    show j.response.setMimeType mimeType = _
    rw [setMimeType_eq]
    cases j.response.setMimeType mimeType <;> rfl
  scopes _ := rfl
  withScopes _ _ := rfl

theorem perform_of_isSetup {op : Op} (h : op.isSetup = true) (limit : Nat) (j : Journal) :
    j.perform limit op = { j with response := (j.response.perform limit op).response } := by
  cases op with
  | write text => exact absurd h (by simp [Op.isSetup])
  | writeBytes bytes => exact absurd h (by simp [Op.isSetup])
  | render template => exact absurd h (by simp [Op.isSetup])
  | _ => rfl

theorem response_perform (limit : Nat) (j : Journal) (op : Op) :
    (j.perform limit op).response = (j.response.perform limit op).response := by
  cases op with
  | write text =>
    rw [Response.perform, Response.write_eq_deliver]
    rfl
  | writeBytes bytes =>
    rw [Response.perform, Response.writeBytes_eq_deliver]
    rfl
  | render template =>
    rw [Response.perform, perform, Response.renderInto, render_map sinkMap_response]
    rcases Stencil.render limit template j with _ | ⟨ending, run⟩ <;> rfl
  | _ => rw [perform_of_isSetup rfl]

theorem response_performAll (limit : Nat) (j : Journal) (ops : List Op) :
    (j.performAll limit ops).response = j.response.performAll limit ops := by
  induction ops generalizing j with
  | nil => rfl
  | cons op ops ih =>
    show ((j.perform limit op).performAll limit ops).response = _
    rw [ih, response_perform]
    rfl

/-! ## What a journal accounts for -/

/-- The stream is empty, or it is the header and the data of the writes that succeeded. Each
operation keeps this, so it holds behind any sequence of them. -/
inductive Sound : Journal → Prop
  | unsent {r : Response} (hsent : r.headerSent = false) (hstream : r.stream = #[]) :
      Sound ⟨r, none, []⟩
  | sent {r o : Response} {header : List UInt8} {written : List (List UInt8)}
      (hsent : r.headerSent = true) (hopen : o.headerSent = false)
      (hheader : Charset.encode? .latin1 o.header = some header)
      (hstream : r.stream.toList = header ++ written.flatten)
      (hsettings : r.settings = o.settings) : Sound ⟨r, some o, written⟩

namespace Sound

variable {j : Journal}

theorem of_response (h : j.Sound) {r : Response} (hsent : r.headerSent = j.response.headerSent)
    (hstream : r.stream = j.response.stream)
    (hsettings : j.response.headerSent = true → r.settings = j.response.settings) :
    Sound { j with response := r } := by
  cases h with
  | unsent hsent' hstream' => exact .unsent (hsent.trans hsent') (hstream.trans hstream')
  | sent hsent' hopen hheader hstream' hsettings' =>
    exact .sent (hsent.trans hsent') hopen hheader (by rw [hstream, hstream'])
      ((hsettings hsent').trans hsettings')

theorem written_of_unsent (h : j.Sound) (hsent : j.response.headerSent = false) :
    j.written = [] := by
  cases h with
  | unsent _ _ => rfl
  | sent hsent' => exact absurd hsent (by simp [hsent'])

theorem stream_of_unsent (h : j.Sound) (hsent : j.response.headerSent = false) :
    j.response.stream = #[] := by
  cases h with
  | unsent _ hstream => exact hstream
  | sent hsent' => exact absurd hsent (by simp [hsent'])

/-- The header is still the one that the settings of the response make. Settings are refused once it
is out, so none of them can have changed since. -/
theorem exists_header (h : j.Sound) (hsent : j.response.headerSent = true) :
    ∃ header, Charset.encode? .latin1 j.response.header = some header ∧
      j.response.stream.toList = header ++ j.written.flatten := by
  cases h with
  | unsent hsent' => exact absurd hsent (by simp [hsent'])
  | sent _ _ hheader hstream hsettings =>
    exact ⟨_, Response.header_eq_of_settings hsettings ▸ hheader, hstream⟩

theorem deliver (h : j.Sound) (data : Option (List UInt8)) : (j.deliver data).2.Sound := by
  cases h with
  | @unsent r hsent hstream =>
    -- The header goes out now, even if there is no data to follow it; or it does not, and then
    -- nothing does.
    rcases Response.sendHeader_of_unsent hsent with hfault | ⟨header, hheader, hok⟩
    · have hdeliver : r.deliver data = (.error .unencodable, r) := by
        rw [Response.deliver, hfault]
      simp only [Journal.deliver, hdeliver, hsent]
      exact .unsent hsent hstream
    · have hdeliver : r.deliver data = match data with
          | some bytes =>
            (.ok (), Response.send { r.send header with headerSent := true } bytes)
          | none => (.error .unencodable, { r.send header with headerSent := true }) := by
        rw [Response.deliver, hok]
      cases data with
      | none =>
        simp only [Journal.deliver, hdeliver]
        exact .sent rfl hsent hheader (by simp [Response.send, hstream]) rfl
      | some bytes =>
        simp only [Journal.deliver, hdeliver]
        exact .sent rfl hsent hheader (by simp [Response.send, hstream]) rfl
  | @sent r o header written hsent hopen hheader hstream hsettings =>
    have hdeliver : r.deliver data = match data with
        | some bytes => (.ok (), r.send bytes)
        | none => (.error .unencodable, r) := by
      rw [Response.deliver, Response.sendHeader_of_sent hsent]
    cases data with
    | none =>
      simp only [Journal.deliver, hdeliver]
      exact .sent hsent hopen hheader hstream hsettings
    | some bytes =>
      simp only [Journal.deliver, hdeliver]
      exact .sent hsent hopen hheader (by simp [Response.send, hstream]) hsettings

theorem setup (h : j.Sound) {p : Response.Performed} (hp : j.response.SetsUp p) :
    Sound { j with response := p.response } :=
  h.of_response hp.headerSent hp.stream fun hsent => congrArg Response.settings (hp.kept hsent)

theorem sinkInvariant : SinkInvariant Sound where
  write _ h text := h.deliver _
  setMimeType j h mimeType j' hset := by
    rw [eq_of_setMimeType hset]
    exact h.setup ((Response.totalSetter_setMimeType mimeType).setsUp j.response)
  withScopes _ h _ := h.of_response rfl rfl fun _ => rfl

theorem perform (h : j.Sound) (limit : Nat) (op : Op) : (j.perform limit op).Sound := by
  cases op with
  | write text => exact h.deliver _
  | writeBytes bytes => exact h.deliver _
  | render template =>
    rw [Journal.perform]
    rcases hrun : Stencil.render limit template j with _ | ⟨ending, run⟩
    · exact h
    · exact sinkInvariant.render h hrun
  | _ =>
    rw [perform_of_isSetup rfl]
    exact h.setup (Response.setsUp_perform rfl limit _)

theorem performAll (h : j.Sound) (limit : Nat) (ops : List Op) :
    (j.performAll limit ops).Sound := by
  induction ops generalizing j with
  | nil => exact h
  | cons op ops ih => exact ih (h.perform limit op)

end Sound

end Journal

/-- After any operations, failing ones among them, the stream is empty just as long as the header is
not sent. Then it is the header of the response as it was at the write that sent the header, and
the data of the writes that succeeded, and what the header was made of stays as it is. An operation
that sets up the response changes nothing if it fails. -/
theorem Response.performAll_sound (limit : Nat) (scopes : Scopes) (cookies : List Cookie)
    (ops : List Op) :
    let j := (Journal.start scopes cookies).performAll limit ops
    let r := (start scopes cookies).performAll limit ops
    j.response = r ∧
      (r.headerSent = false ↔ r.stream = #[]) ∧
      (r.headerSent = true → ∃ o header, j.opened = some o ∧ o.headerSent = false ∧
        Charset.encode? .latin1 o.header = some header ∧
        r.stream.toList = header ++ j.written.flatten ∧ r.settings = o.settings) ∧
      ∀ op,
        (r.headerSent = true → (r.perform limit op).response.headerSent = true ∧
          (r.perform limit op).response.settings = r.settings) ∧
        (op.isSetup = true → ∀ fault, (r.perform limit op).answer = .error fault →
          (r.perform limit op).response = r) := by
  intro j r
  have hresponse : j.response = r := Journal.response_performAll limit _ ops
  have hsound : j.Sound := (Journal.Sound.unsent rfl rfl).performAll limit ops
  clear_value j
  refine ⟨hresponse, ?_, ?_, fun op => ⟨fun hsent => ?_, fun hop fault hfault => ?_⟩⟩
  · rw [← hresponse]
    cases hsound with
    | unsent hsent hstream => simp [hsent, hstream]
    | sent hsent _ hheader hstream _ =>
      refine ⟨fun h => absurd h (by simp [hsent]), fun h => ?_⟩
      rw [h] at hstream
      exact absurd (List.append_eq_nil_iff.1 hstream.symm).1 (ne_nil_of_encode?_header hheader)
  · rw [← hresponse]
    intro h
    cases hsound with
    | unsent hsent _ => exact absurd h (by simp [hsent])
    | sent _ hopen hheader hstream hsettings =>
      exact ⟨_, _, rfl, hopen, hheader, hstream, hsettings⟩
  · exact Committed.perform ⟨hsent, rfl⟩ limit op
  · exact (setsUp_perform hop limit r).failed fault hfault

/-- An unknown encoding is refused, two writes are sent behind one header, and then the status can
not change. -/
theorem Response.performAll_sound_two_writes :
    let r := (start (.start .empty .empty) []).performAll 1
      [.setEncoding "none", .write "a", .writeBytes [98]]
    r.headerSent = true ∧
      (∃ (o : Response) (header : List UInt8), Charset.encode? .latin1 o.header = some header ∧
        r.stream.toList = header ++ [97, 98] ∧ r.settings = o.settings) ∧
      (r.perform 1 (.setStatusCode 404)).response = r := by
  intro r
  have hsent : r.headerSent = true := by decide +kernel
  obtain ⟨-, -, hstream, hnext⟩ := performAll_sound 1 (.start .empty .empty) []
    [.setEncoding "none", .write "a", .writeBytes [98]]
  obtain ⟨o, header, -, -, hheader, hstream, hsettings⟩ := hstream hsent
  have hwritten : ((Journal.start (.start .empty .empty) []).performAll 1
      [.setEncoding "none", .write "a", .writeBytes [98]]).written = [[97], [98]] := by
    decide +kernel
  rw [hwritten] at hstream
  refine ⟨hsent, ⟨o, header, hheader, hstream, hsettings⟩, ?_⟩
  exact (hnext (.setStatusCode 404)).2 rfl (.sink .headerSent) (by rfl)

end Stencil
