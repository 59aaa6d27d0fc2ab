import Mathlib.Control.Monad.Basic
import Stencil.Command.Report
import Stencil.Proofs.Command.Assignment
import Stencil.Proofs.Command.Words
import Stencil.Proofs.Node.RoundTrip
import Stencil.Proofs.Render.SinkSimulation
import Stencil.Proofs.Render.Turns

/-!
# What rendering a file prints

Rendered as text, a file is printed just as it is rendered in memory, or not at all
(`perform_prints`). Which of the two it is says `FileRendition`, which knows nothing of a setting or
of a sink that a profile has set up: the parameters of the profile are all that counts of it, with
the assignments put over them.
-/

set_option autoImplicit false

namespace Stencil

/-! ## Kinds of failures -/

/-- The kinds of failures. A program catches failures by their kind and not one by one, so this is
what decides between an orderly end and a broken one. -/
inductive FaultKind where
  | script
  /-- A text is not of the form that it should have. -/
  | value
  /-- A file can not be read. -/
  | file
  /-- Nothing is known under a name. -/
  | lookup
  /-- Data is of a kind that can not be dealt with. -/
  | type
  /-- A number is too large. -/
  | range

/-- Whether a failure of the kind is told to the user and ends the program in order. The two kinds
that are not caught end it with what they are. -/
def FaultKind.isCaught : FaultKind → Bool
  | .script | .value | .file | .lookup => true
  | .type | .range => false

def FileFault.kind : FileFault → FaultKind
  | .nullCharacter | .noText => .value
  | .missing | .throughFile | .folder | .denied | .tooLong => .file

def ProfileFault.kind : ProfileFault → FaultKind
  | .unnamedField _ | .unorderedFields | .unfitKey _ => .type
  | .unfitScalar _ => .value
  | .outOfRange => .range
  | .unknownFields _ | .unfit _ _ _ | .incompleteCookie _ | .notMapping _ | .malformed _ => .script

def SinkFault.kind : SinkFault → FaultKind
  | .headerSent => .script
  | .unknownEncoding _ => .lookup
  | .nullCharacter | .unencodable | .undecodable => .value

def EvalFault.kind : EvalFault → FaultKind
  | .value .tooLarge => .range
  | .sink fault => fault.kind
  | .value _ | .noVariable _ | .underflow _ _ | .unknownFunction _ | .loopStep _ _ => .script

def CommandFault.kind : CommandFault → FaultKind
  | .file _ fault => fault.kind
  | .profile fault => fault.kind
  | .assignment _ => .value
  | .template _ => .script
  | .sink fault => fault.kind
  | .run fault => fault.kind

/-- What is reported to the user is what is caught. The program has a list of failures for this, and
the kinds are a second way to say which. -/
theorem CommandFault.isReported_eq (fault : CommandFault) :
    fault.isReported = fault.kind.isCaught := by
  cases fault with
  | file p fault => cases fault <;> rfl
  | profile fault => cases fault <;> rfl
  | assignment fault => rfl
  | template e => rfl
  | sink fault => cases fault <;> rfl
  | run fault =>
    cases fault with
    | value fault => cases fault <;> rfl
    | sink fault => cases fault <;> rfl
    | _ => rfl

/-! ## What a file is rendered to -/

/-- What comes of rendering a file, told without a report: neither the words that asked for it nor
the channels that it is printed to are in here. -/
inductive Rendition where
  | text (body : String)
  | failure (kind : FaultKind)
  /-- The limit of turns was met. -/
  | unfinished

def Rendition.ofRender : Except ParseError (Ending × Run TextSink) → Rendition
  | .error _ => .failure .script
  | .ok (.returned, r) => .text r.sink.body
  | .ok (.failed fault, _) => .failure fault.kind
  | .ok (.unfinished, _) => .unfinished

variable {limit : Nat} {look : Look} {details : Bool} {file : String} {o : RenderOptions}
  {read : Profile.Reader}

/-- The parameters that a template starts with: those of the profile, with the items put over
them. -/
inductive StartsWith (look : Look) (o : RenderOptions) (read : Profile.Reader) :
    Dictionary String → Dictionary String → Prop
  | intro {profile : Profile} {request persistent : Dictionary String}
      (hprofile : namedProfile look o.config read = .ok profile)
      (hrequest : Overridden profile.parameters o.request request)
      (hpersistent : Overridden profile.persistentParameters o.persistent persistent) :
      StartsWith look o read request persistent

/-- What comes of rendering a file with the options of an invocation: the profile is loaded, the
items are read, then the file, and then its text is rendered in memory. The first of these that
fails decides. -/
inductive FileRendition (limit : Nat) (look : Look) (file : String) (o : RenderOptions)
    (read : Profile.Reader) :
    Rendition → Prop
  | badProfile {fault : CommandFault} (hprofile : namedProfile look o.config read = .error fault) :
      FileRendition limit look file o read (.failure fault.kind)
  | badItem {profile : Profile} {item : String}
      (hprofile : namedProfile look o.config read = .ok profile)
      (hmem : item ∈ o.request ++ o.persistent) (hitem : ¬ IsAssignment item) :
      FileRendition limit look file o read (.failure .value)
  | unreadable {request persistent : Dictionary String} {fault : CommandFault}
      (hstart : StartsWith look o read request persistent)
      (hfile : fileText look file = .error fault) :
      FileRendition limit look file o read (.failure fault.kind)
  | rendered {request persistent : Dictionary String} {text : String}
      (hstart : StartsWith look o read request persistent) (hfile : fileText look file = .ok text) :
      FileRendition limit look file o read (.ofRender (renderText limit text request persistent))

theorem exists_fileRendition (limit : Nat) (look : Look) (file : String) (o : RenderOptions)
    (read : Profile.Reader) :
    ∃ rendition, FileRendition limit look file o read rendition := by
  cases hprofile : namedProfile look o.config read with
  | error fault => exact ⟨_, .badProfile hprofile⟩
  | ok profile =>
    by_cases hitems : ∀ item ∈ o.request ++ o.persistent, IsAssignment item
    · rw [List.forall_mem_append] at hitems
      obtain ⟨request, hrequest⟩ := exists_overridden_iff.2 hitems.1
      obtain ⟨persistent, hpersistent⟩ := exists_overridden_iff.2 hitems.2
      have hstart : StartsWith look o read request persistent :=
        .intro hprofile hrequest hpersistent
      cases hfile : fileText look file with
      | error fault => exact ⟨_, .unreadable hstart hfile⟩
      | ok text => exact ⟨_, .rendered hstart hfile⟩
    · simp only [not_forall] at hitems
      obtain ⟨item, hmem, hitem⟩ := hitems
      exact ⟨_, .badItem hprofile hmem hitem⟩

/-! ## What is printed -/

/-- A rendition is printed as a whole or not at all. Remarks are left open: they go to another
channel, and how much of the log is in them depends on an option. -/
inductive Prints : Rendition → Report → Prop
  | text (body remarks : String) : Prints (.text body) ⟨.exited 0, .text body, remarks⟩
  | reported {kind : FaultKind} (hcaught : kind.isCaught = true) (remarks : String) :
      Prints (.failure kind) ⟨.exited 2, .text "", remarks⟩
  | broken {fault : CommandFault} (hcaught : fault.kind.isCaught = false) (remarks : String) :
      Prints (.failure fault.kind) ⟨.broken fault, .text "", remarks⟩
  | unfinished (remarks : String) : Prints .unfinished ⟨.unfinished, .text "", remarks⟩

theorem prints_failure (details : Bool) (log : List LogRecord) (fault : CommandFault) :
    Prints (.failure fault.kind) (.failure details (.text "") log fault) := by
  rw [Report.failure, CommandFault.isReported_eq]
  split
  · rename_i hcaught
    exact .reported hcaught _
  · rename_i hcaught
    exact .broken (Bool.not_eq_true _ ▸ hcaught) _

/-! ## Settings -/

theorem setting_of_profile_error {fault : CommandFault}
    (h : namedProfile look o.config read = .error fault) : setting look o read = .error fault := by
  rw [setting, h]
  rfl

theorem setting_eq {profile : Profile} (h : namedProfile look o.config read = .ok profile) :
    setting look o read = do
      let request ← (profile.parameters.assign o.request).mapError .assignment
      let persistent ← (profile.persistentParameters.assign o.persistent).mapError .assignment
      let encoding := (given? o.encoding).getD profile.encoding
      return ⟨{ profile with encoding }, request, persistent⟩ := by
  rw [setting, h]
  rfl

theorem exists_setting_of_startsWith {request persistent : Dictionary String}
    (h : StartsWith look o read request persistent) :
    ∃ profile, setting look o read = .ok ⟨profile, request, persistent⟩ := by
  obtain ⟨hprofile, hrequest, hpersistent⟩ := h
  rw [← Dictionary.assign_eq_ok_iff] at hrequest hpersistent
  rw [setting_eq hprofile, hrequest, hpersistent]
  exact ⟨_, rfl⟩

theorem exists_setting_eq_error {profile : Profile} {item : String}
    (hprofile : namedProfile look o.config read = .ok profile)
    (hmem : item ∈ o.request ++ o.persistent) (hitem : ¬ IsAssignment item) :
    ∃ fault, setting look o read = .error (.assignment fault) := by
  rw [setting_eq hprofile]
  cases hrequest : profile.parameters.assign o.request with
  | error fault => exact ⟨fault, rfl⟩
  | ok request =>
    cases hpersistent : profile.persistentParameters.assign o.persistent with
    | error fault => exact ⟨fault, rfl⟩
    | ok persistent =>
      have hall := exists_overridden_iff.1 ⟨_, Dictionary.assign_eq_ok_iff.1 hrequest⟩
      have hall' := exists_overridden_iff.1 ⟨_, Dictionary.assign_eq_ok_iff.1 hpersistent⟩
      rcases List.mem_append.1 hmem with hmem | hmem
      · exact absurd (hall item hmem) hitem
      · exact absurd (hall' item hmem) hitem

/-! ## Sinks that a profile has set up -/

/-- Two sinks that hold the same parameters and have collected the same text. A profile also sets a
media type and an encoding, and this relation is how they are shown not to matter. -/
structure SameBody (s t : TextSink) : Prop where
  scopes : s.scopes = t.scopes
  body : s.body = t.body

/-- The media type and the encoding of a sink that collects text count for nothing. Both sinks take
every call, so neither breaks before the other and the last parameter is never used. -/
theorem sameBody_simulation : SinkSimulation SameBody fun _ _ _ => False where
  accepts := TextSink.accepts
  write _ _ h text := .agree _ ⟨h.scopes, congrArg (· ++ text) h.body⟩
  setMimeType _ _ h _ := ⟨_, rfl, .inl ⟨_, rfl, h.scopes, h.body⟩⟩
  scopes _ _ h := h.scopes
  withScopes _ _ h _ := ⟨rfl, h.body⟩
  broken _ _ := ⟨fun _ h => h.elim, fun _ h => h.elim, fun _ h => h.elim⟩

theorem Rendition.ofRender_eq_of_simulated {x y : Ending × Run TextSink}
    (h : RunsSimulated SameBody (fun _ _ _ => False) x y) :
    ofRender (.ok x) = ofRender (.ok y) := by
  cases h with
  | agree ending hruns =>
    cases ending with
    | returned => exact congrArg Rendition.text hruns.sink.body
    | failed fault => rfl
    | unfinished => rfl
  | broken _ _ hbroken => exact hbroken.elim

theorem prints_ofRun (details : Bool) (x : Ending × Run TextSink) :
    Prints (.ofRender (.ok x))
      (.ofRun details x.1 (.text x.2.sink.body) (.text "") x.2.log) := by
  obtain ⟨ending, run⟩ := x
  cases ending with
  | returned => exact .text _ _
  | failed fault => exact prints_failure details run.log (.run fault)
  | unfinished => exact .unfinished _

theorem prints_renderAsText (limit : Nat) (details : Bool) (profile : Profile)
    (request persistent : Dictionary String) {text : String} {document : Node}
    (hparse : parse text = .ok document) :
    Prints (.ofRender (renderText limit text request persistent))
      (renderAsText limit details ⟨profile, request, persistent⟩ document) := by
  let plain : TextSink := .start (.start request persistent) "UTF-8"
  let start (sink : TextSink) : Run TextSink :=
    ⟨sink, .empty, [.executing, .parsed document.children.length]⟩
  have hstart : RunsAgree SameBody (start plain) (start (profile.applyToText plain)) :=
    ⟨⟨rfl, rfl⟩, rfl, rfl⟩
  have hvisit := sameBody_simulation.visit limit document hstart
  have hrender : renderText limit text request persistent =
      .ok (Run.visit limit document (start plain)) := by
    rw [renderText, render, hparse]
    rfl
  rw [hrender, Rendition.ofRender_eq_of_simulated hvisit]
  exact prints_ofRun details _

/-! ## Rendering a file -/

theorem fileTree_eq {text : String} (h : fileText look file = .ok text) :
    fileTree look file = (parse text).mapError .template := by
  rw [fileTree, h]
  rfl

theorem renderText_of_refused {text : String} {e : ParseError}
    {request persistent : Dictionary String} (h : parse text = .error e) :
    renderText limit text request persistent = .error e := by
  rw [renderText, render, h]
  rfl

/-- Rendered as text, a file prints what it comes to when it is rendered in memory: all of it with
the code 0, or nothing at all with the code 2 if a failure of a kind that is caught made it fail. Of
the profile nothing but the parameters counts, with the items put over them. -/
theorem perform_prints (limit : Nat) (look : Look) (details : Bool) (file : String)
    (o : RenderOptions) (read : Profile.Reader) (htext : o.http = false) :
    ((∀ e ∈ o.settings, e.2 ≠ Word.separator) →
        Invocation.ofWords (o.words file) = .ok (.render file o)) ∧
      (∃ rendition, FileRendition limit look file o read rendition) ∧
      ∀ rendition, FileRendition limit look file o read rendition →
        Prints rendition ((Invocation.render file o).perform limit look details read) := by
  refine ⟨ofWords_words o file, exists_fileRendition limit look file o read,
    fun rendition h => ?_⟩
  unfold Invocation.perform
  dsimp only
  cases h with
  | badProfile hprofile =>
    rw [setting_of_profile_error hprofile]
    exact prints_failure _ _ _
  | badItem hprofile hmem hitem =>
    obtain ⟨fault, hsetting⟩ := exists_setting_eq_error hprofile hmem hitem
    rw [hsetting]
    exact prints_failure _ _ (.assignment fault)
  | unreadable hstart hfile =>
    obtain ⟨profile, hsetting⟩ := exists_setting_of_startsWith hstart
    rw [hsetting, fileTree, hfile]
    exact prints_failure _ _ _
  | @rendered request persistent text hstart hfile =>
    obtain ⟨profile, hsetting⟩ := exists_setting_of_startsWith hstart
    rw [hsetting, fileTree_eq hfile, htext]
    cases hparse : parse text with
    | error e =>
      rw [renderText_of_refused hparse]
      exact prints_failure _ _ (.template e)
    | ok document => exact prints_renderAsText limit _ profile request persistent hparse

/-- Of two assignments to a name the second one counts, and both count more than the profile, whose
encoding has no effect on the text. -/
theorem perform_prints_override :
    let page := "\x7b$= \"Hello \" \"user\" \"guest\" @paramGet $\x7d\r\n"
    let profile := "encoding: utf-16\nstatus_code: 404\nparameters:\n  user: alice\n"
    let look := (Folder.ofEntries ⟨[("page", page), ("p.yaml", profile)]⟩).look
    let o : RenderOptions := ⟨some "p.yaml", ["user=bob", " user = =carl"], [], false, none, true⟩
    Invocation.ofWords ["render", "--config=p.yaml", "--param=user=bob", "--param= user = =carl",
        "--verbose", "--", "page"] = .ok (.render "page" o) ∧
      Prints (.text "Hello  =carl") ((Invocation.render "page" o).perform 0 look false readYaml) := by
  intro page profile look o
  obtain ⟨hwords, -, hprints⟩ := perform_prints 0 look false "page" o readYaml rfl
  refine ⟨hwords (by decide), hprints _ ?_⟩
  have hprofile : (namedProfile look o.config readYaml).map
      (fun p => (p.parameters, p.persistentParameters)) = .ok (⟨[("user", "alice")]⟩, ⟨[]⟩) := by
    decide +kernel
  obtain ⟨p, hp, hparameters⟩ := map_eq_ok_iff.1 hprofile
  obtain ⟨hrequest, hpersistent⟩ := Prod.mk.inj hparameters
  have hassign : Overridden p.parameters o.request ⟨[("user", " =carl")]⟩ := by
    rw [hrequest]
    exact Dictionary.assign_eq_ok_iff.1 (by decide +kernel)
  have hnothing : Overridden p.persistentParameters o.persistent ⟨[]⟩ := by
    rw [hpersistent]
    exact .nil _
  have hfile : fileText look "page" =
      .ok "\x7b$= \"Hello \" \"user\" \"guest\" @paramGet $\x7d\n" := by decide +kernel
  have hparse : parse "\x7b$= \"Hello \" \"user\" \"guest\" @paramGet $\x7d\n" =
      .ok (.document [.echo [.string "Hello ", .string "user", .string "guest",
        .function "paramGet"]]) :=
    parse_echo ⟨"$= \"Hello \" \"user\" \"guest\" @paramGet $".toList, rfl, by decide⟩
      (by decide +kernel)
  let plain : TextSink := .start (.start ⟨[("user", " =carl")]⟩ ⟨[]⟩) "UTF-8"
  have hreturned : (Engine.execute 0 ⟨.document [.echo [.string "Hello ", .string "user",
      .string "guest", .function "paramGet"]], plain⟩ [.parsed 1]).1 = .returned := by
    decide +kernel
  have hrender : Rendition.text "Hello  =carl" = .ofRender (renderText 0
      "\x7b$= \"Hello \" \"user\" \"guest\" @paramGet $\x7d\n" ⟨[("user", " =carl")]⟩ ⟨[]⟩) := by
    rw [renderText, render_of_parse hparse hreturned]
    exact congrArg Rendition.text (by decide +kernel)
  rw [hrender]
  exact .rendered (.intro hp hassign hnothing) hfile

end Stencil
