import Stencil.Proofs.Render.Journal
import Stencil.Proofs.Render.SinkSimulation
import Stencil.Proofs.Text.Charset

/-!
# A text and a response of one template

Rendered as text and into a new response, a template comes to the same: the same ending, the same
parameters, and the same log but for media types that come too late for the response. The response
has sent nothing if nothing was written, and else its header and the text in UTF-8. The one
exception is a header that can not be sent, which shows at the first write (`render_agrees`).

Whether something was written does not show in a text, since what was written may be empty. So the
text is collected by a `Watched` sink, which notes the media type at its first write.
-/

set_option autoImplicit false

namespace Stencil

/-! ## Watching the first write -/

/-- A sink that collects text, and the media type at the first write to it. A response fixes its
media type then, while a sink that only collects text takes a new one at any time; so the two can be
compared only if that moment is noted. -/
structure Watched where
  sink : TextSink
  opened : Option String

namespace Watched

def start (scopes : Scopes) : Watched := ⟨.start scopes "UTF-8", none⟩

instance : Sink Watched where
  write w text := (.ok (), ⟨w.sink.write text, w.opened.or (some w.sink.mimeType)⟩)
  setMimeType w mimeType := .ok { w with sink := { w.sink with mimeType } }
  scopes w := w.sink.scopes
  withScopes w scopes := { w with sink := { w.sink with scopes } }

theorem sinkMap : SinkMap Watched.sink where
  write _ _ := rfl
  setMimeType _ _ := rfl
  scopes _ := rfl
  withScopes _ _ := rfl

end Watched

namespace Response

/-! ## The response that goes along -/

/-- The settings of a new response, of which a template can only change the media type. -/
def newSettings (mimeType : String) : Settings := ⟨.utf8, 200, "OK", mimeType, []⟩

/-- A response that has sent what a watched sink has collected, behind its header if there was a
write. -/
inductive Mirrors : Watched → Response → Prop
  | unsent {t : TextSink} {r : Response} (hscopes : t.scopes = r.scopes) (hbody : t.body = "")
      (hsent : r.headerSent = false) (hstream : r.stream = #[])
      (hsettings : r.settings = newSettings t.mimeType) : Mirrors ⟨t, none⟩ r
  | sent {t : TextSink} {r : Response} {mimeType : String} {header body : List UInt8}
      (hscopes : t.scopes = r.scopes) (hsent : r.headerSent = true)
      (hsettings : r.settings = newSettings mimeType)
      (hheader : Charset.encode? .latin1 r.header = some header)
      (hbody : Charset.encode? .utf8 t.body = some body)
      (hstream : r.stream.toList = header ++ body) : Mirrors ⟨t, some mimeType⟩ r

/-- A response that has failed at the first write, since its header could not be sent. Its run has
ended with that, while the watched sink goes on. -/
structure Unsendable (fault : SinkFault) (w : Watched) (r : Response) : Prop where
  fault : fault = .unencodable
  opened : w.opened = some r.mimeType
  header : Charset.encode? .latin1 r.header = none
  stream : r.stream = #[]

theorem encode?_of_settings {r : Response} {mimeType : String}
    (h : r.settings = newSettings mimeType) (text : String) :
    ∃ bytes, r.encode? text = some bytes ∧ Charset.encode? .utf8 text = some bytes := by
  have hencoding : r.encoding = .utf8 := congrArg Settings.encoding h
  refine ⟨_, ?_, Charset.encode?_utf8 text⟩
  rw [encode?, hencoding]
  exact Charset.encode?_utf8 text

theorem unsendable_invariant (fault : SinkFault) (r : Response) :
    SinkInvariant (Unsendable fault · r) where
  write w h text := by
    refine ⟨h.fault, ?_, h.header, h.stream⟩
    show w.opened.or _ = _
    rw [h.opened]
    rfl
  setMimeType w h mimeType w' hset := by
    obtain rfl := Except.ok.inj hset
    exact ⟨h.fault, h.opened, h.header, h.stream⟩
  withScopes _ h _ := ⟨h.fault, h.opened, h.header, h.stream⟩

/-- One write: the header goes out before the first text, or else the response fails. If the header
can not be encoded, nothing is written, and the render ends there. -/
theorem Mirrors.write {w : Watched} {r : Response} (h : Mirrors w r) (text : String) :
    Simulated Mirrors Unsendable Except.error (Sink.write w text) (Sink.write r text) := by
  show Simulated Mirrors Unsendable Except.error (Sink.write w text) (r.write text)
  rw [write_eq_deliver]
  cases h with
  | @unsent t r hscopes hbody hsent hstream hsettings =>
    obtain ⟨bytes, hbytes, hutf8⟩ := encode?_of_settings hsettings text
    have hmime : t.mimeType = r.mimeType := (congrArg Settings.mimeType hsettings).symm
    cases hheader : Charset.encode? .latin1 r.header with
    | none =>
      have hdeliver : r.deliver (r.encode? text) = (.error .unencodable, r) := by
        rw [deliver, sendHeader, if_neg (by simp [hsent]), hheader]
      rw [hdeliver]
      exact .broken _ .unencodable ⟨rfl, congrArg some hmime, hheader, hstream⟩
    | some header =>
      have hdeliver : r.deliver (r.encode? text) =
          (.ok (), Response.send { r.send header with headerSent := true } bytes) := by
        rw [deliver, sendHeader, if_neg (by simp [hsent]), hheader, hbytes]
      rw [hdeliver]
      have hbody' : Charset.encode? .utf8 (t.write text).body = some bytes := by
        rw [TextSink.write, hbody, String.empty_append, hutf8]
      refine .agree _ (.sent hscopes rfl hsettings hheader hbody' ?_)
      simp [send, hstream]
  | @sent t r mimeType header body hscopes hsent hsettings hheader hbody hstream =>
    obtain ⟨bytes, hbytes, hutf8⟩ := encode?_of_settings hsettings text
    have hdeliver : r.deliver (r.encode? text) = (.ok (), r.send bytes) := by
      rw [deliver, sendHeader_of_sent hsent, hbytes]
    rw [hdeliver]
    have hbody' : Charset.encode? .utf8 (t.write text).body = some (body ++ bytes) :=
      Charset.encode?_append (by decide) hbody hutf8
    refine .agree _ (.sent hscopes hsent hsettings hheader hbody' ?_)
    simp [send, hstream]

theorem Mirrors.setMimeType {w : Watched} {r : Response} (h : Mirrors w r) (mimeType : String) :
    ∃ w', Sink.setMimeType w mimeType = .ok w' ∧
      ((∃ r', Sink.setMimeType r mimeType = .ok r' ∧ Mirrors w' r') ∨
        Sink.setMimeType r mimeType = .error .headerSent ∧ Mirrors w' r) := by
  refine ⟨_, rfl, ?_⟩
  show (∃ r', r.setMimeType mimeType = .ok r' ∧ _) ∨ r.setMimeType mimeType = _ ∧ _
  rw [Response.setMimeType]
  cases h with
  | @unsent t r hscopes hbody hsent hstream hsettings =>
    rw [open?_of_unsent hsent]
    refine .inl ⟨_, rfl, .unsent hscopes hbody hsent hstream ?_⟩
    rw [settings, newSettings, Settings.mk.injEq] at hsettings ⊢
    obtain ⟨hencoding, hcode, htext, -, hcookies⟩ := hsettings
    exact ⟨hencoding, hcode, htext, rfl, hcookies⟩
  | sent hscopes hsent hsettings hheader hbody hstream =>
    rw [open?_of_sent hsent]
    exact .inr ⟨rfl, .sent hscopes hsent hsettings hheader hbody hstream⟩

theorem Mirrors.scopes {w : Watched} {r : Response} (h : Mirrors w r) :
    Sink.scopes w = Sink.scopes r := by
  cases h with
  | unsent hscopes => exact hscopes
  | sent hscopes => exact hscopes

theorem Mirrors.withScopes {w : Watched} {r : Response} (h : Mirrors w r) (scopes : Scopes) :
    Mirrors (Sink.withScopes w scopes) (Sink.withScopes r scopes) := by
  cases h with
  | unsent _ hbody hsent hstream hsettings => exact .unsent rfl hbody hsent hstream hsettings
  | sent _ hsent hsettings hheader hbody hstream =>
    exact .sent rfl hsent hsettings hheader hbody hstream

theorem mirrors_simulation : SinkSimulation Mirrors Unsendable where
  accepts _ _ := rfl
  write _ _ h text := h.write text
  setMimeType _ _ h mimeType := h.setMimeType mimeType
  scopes _ _ h := h.scopes
  withScopes _ _ h scopes := h.withScopes scopes
  broken := unsendable_invariant

theorem mirrors_start (scopes : Scopes) : Mirrors (Watched.start scopes) (start scopes []) :=
  .unsent rfl rfl rfl rfl rfl

/-! ## What agrees at the end -/

/-- A watched run and a run into a response that agree. -/
structure RendersAlike (w : Run Watched) (r : Run Response) : Prop where
  scopes : r.sink.scopes = w.sink.sink.scopes
  log : timely r.log = w.log
  settings : r.sink.settings = newSettings r.sink.mimeType
  unwritten : w.sink.opened = none → r.sink.stream = #[]
  written : ∀ mimeType, w.sink.opened = some mimeType → r.sink.mimeType = mimeType ∧
    ∃ header body, Charset.encode? .latin1 r.sink.header = some header ∧
      Charset.encode? .utf8 w.sink.sink.body = some body ∧ r.sink.stream.toList = header ++ body

theorem rendersAlike_of_agree {w : Run Watched} {r : Run Response} (h : RunsAgree Mirrors w r) :
    RendersAlike w r := by
  obtain ⟨sink, vars, log⟩ := w
  obtain ⟨hsink, -, hlog⟩ := h
  cases hsink with
  | unsent hscopes _ _ hstream hsettings =>
    have hmime := congrArg Settings.mimeType hsettings
    refine ⟨hscopes.symm, hlog.symm, ?_, fun _ => hstream, fun _ => (nomatch ·)⟩
    rw [hsettings]
    exact congrArg newSettings hmime.symm
  | sent hscopes _ hsettings hheader hbody hstream =>
    have hmime := congrArg Settings.mimeType hsettings
    refine ⟨hscopes.symm, hlog.symm, ?_, (nomatch ·), fun _ hopened => ?_⟩
    · rw [hsettings]
      exact congrArg newSettings hmime.symm
    · exact ⟨hmime.trans (Option.some.inj hopened), _, _, hheader, hbody, hstream⟩

end Response

/-- Rendered as text and into a new response, a template ends alike and leaves the same parameters;
the logs differ in media types that came too late for the response and in nothing else. If nothing
was written, nothing was sent, and otherwise the header of the response, with the media type at the
first write, and the text in UTF-8. The exception is a header that can not be sent: then nothing
is, and the render into the response fails at the first write. -/
theorem Response.render_agrees (limit : Nat) (template : String) (scopes : Scopes) :
    (∃ e, render limit template (TextSink.start scopes "UTF-8") = .error e ∧
        render limit template (start scopes []) = .error e) ∨
      ∃ ending w ending' r,
        render limit template (TextSink.start scopes "UTF-8") =
          .ok (ending, w.mapSink Watched.sink) ∧
        render limit template (Watched.start scopes) = .ok (ending, w) ∧
        render limit template (start scopes []) = .ok (ending', r) ∧
        ((ending' = ending ∧ RendersAlike w r) ∨
          ending' = .failed (.sink .unencodable) ∧ Unsendable .unencodable w.sink r.sink) := by
  have htext := render_map Watched.sinkMap limit template (Watched.start scopes)
  rcases mirrors_simulation.render limit template (mirrors_start scopes) with
    ⟨e, hw, hr⟩ | ⟨⟨ending, w⟩, ⟨ending', r⟩, hw, hr, hsim⟩
  · rw [hw] at htext
    exact .inl ⟨e, htext, hr⟩
  · rw [hw] at htext
    refine .inr ⟨ending, w, ending', r, htext, hw, hr, ?_⟩
    cases hsim with
    | agree _ hagree => exact .inl ⟨rfl, rendersAlike_of_agree hagree⟩
    | broken _ fault hbroken =>
      obtain rfl := hbroken.fault
      exact .inr ⟨rfl, hbroken⟩

end Stencil
