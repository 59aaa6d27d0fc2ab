import Stencil.Command.Invocation
import Stencil.Proofs.Text.Span

/-!
# Words for an invocation

Every way to render a file can be asked for: `RenderOptions.words` writes the options down, each
value attached to the name of its option and the file behind a separator, and these words are read
as just those options (`ofWords_words`). The one value that can not be attached is the separator.
-/

set_option autoImplicit false

namespace Stencil

def Switch.attach (s : Switch) (value : String) : String := s.longName ++ "=" ++ value

namespace RenderOptions

/-- The options that have values, with their values. One that can be given several times stands here
as often, in the order of its values. -/
def settings (o : RenderOptions) : List (Switch × String) :=
  o.config.toList.map (.config, ·) ++ o.request.map (.request, ·) ++
    o.persistent.map (.persistent, ·) ++ o.encoding.toList.map (.encoding, ·)

def flags (o : RenderOptions) : List Switch :=
  (if o.http then [.http] else []) ++ if o.verbose then [.verbose] else []

/-- Words that ask for rendering a file with the options. Values are attached to their options and
the file stands behind a separator, as any of them may start with a dash. -/
def words (o : RenderOptions) (file : String) : List String :=
  "render" :: (o.settings.map (fun e => e.1.attach e.2) ++ o.flags.map Switch.longName ++
    [Word.separator, file])

end RenderOptions

/-! ## Single words -/

namespace Switch

variable {s : Switch}

theorem toList_attach (s : Switch) (value : String) :
    (s.attach value).toList = s.longName.toList ++ '=' :: value.toList := by
  simp [attach]

theorem longName_form (s : Switch) :
    (∃ rest, s.longName.toList = '-' :: '-' :: rest) ∧
      s.longName.toList.all (· ≠ '=') = true := by
  cases s <;> exact ⟨⟨_, rfl⟩, rfl⟩

theorem attach_ne_separator (s : Switch) (value : String) : s.attach value ≠ Word.separator := by
  intro h
  have hmem : '=' ∈ (s.attach value).toList := by simp [toList_attach]
  rw [h] at hmem
  exact absurd hmem (by decide)

/-- The name is what counts in front of a value. The first equals sign ends it, and the value may
hold others. -/
theorem classify_attach (known : List Switch) (s : Switch) (value : String) :
    Word.classify known (s.attach value) = Word.ofNamed known (s.attach value).toList ∧
      Word.splitEquals (s.attach value).toList = (s.longName.toList, some value.toList) := by
  obtain ⟨⟨rest, hrest⟩, hsign⟩ := s.longName_form
  rw [List.all_eq_true] at hsign
  rw [Word.classify, toList_attach]
  constructor
  · rw [hrest]
    rfl
  · unfold Word.splitEquals
    rw [dropWhile_span hsign rfl, takeWhile_span hsign rfl]

theorem classify_attach_render (h : s.takesValue = true) (value : String) :
    Word.classify Invocation.renderSwitches (s.attach value) = .named s (some value) := by
  have hstart : Word.startingWith Invocation.renderSwitches s.longName.toList = [s] := by
    cases s <;> first | exact absurd h (by decide) | decide
  obtain ⟨hnamed, hsplit⟩ := classify_attach Invocation.renderSwitches s value
  rw [hnamed, Word.ofNamed, hsplit]
  dsimp only
  rw [hstart]
  exact congrArg (Word.named s ∘ some) String.ofList_toList

theorem classify_attach_outer (h : s.takesValue = true) (value : String) :
    Word.classify Invocation.outerSwitches (s.attach value) ≠ .ambiguous := by
  have hstart : Word.startingWith Invocation.outerSwitches s.longName.toList = [] := by
    cases s <;> first | exact absurd h (by decide) | decide
  obtain ⟨hnamed, hsplit⟩ := classify_attach Invocation.outerSwitches s value
  rw [hnamed, Word.ofNamed, hsplit]
  dsimp only
  rw [hstart]
  dsimp only
  unfold Word.ofRest
  split <;> simp

end Switch

/-! ## All the words -/

namespace Invocation

theorem Reading.setAttached_of_ne {r : Reading} {s : Switch} {value : String}
    (h : value ≠ Word.separator) : r.setAttached s value = r.set s value := by
  unfold setAttached
  exact if_pos h

theorem readWords_attach (settings : List (Switch × String)) (words : List String)
    (h : ∀ e ∈ settings, e.1.takesValue = true ∧ e.2 ≠ Word.separator) :
    ∀ (r : Reading) (behindFile : Bool), ∃ behindFile',
      readWords renderSwitches r behindFile (settings.map (fun e => e.1.attach e.2) ++ words) =
        readWords renderSwitches (settings.foldl (fun r e => r.set e.1 e.2) r) behindFile'
          words := by
  induction settings with
  | nil => exact fun r behindFile => ⟨behindFile, rfl⟩
  | cons e settings ih =>
    intro r behindFile
    obtain ⟨hvalue, hne⟩ := h e (List.mem_cons_self ..)
    obtain ⟨behindFile', hrest⟩ := ih (fun e hmem => h e (List.mem_cons_of_mem _ hmem))
      (r.set e.1 e.2) false
    refine ⟨behindFile', ?_⟩
    rw [List.map_cons, List.cons_append, readWords, if_neg (e.1.attach_ne_separator e.2),
      Switch.classify_attach_render hvalue]
    dsimp only
    rw [if_pos hvalue, Reading.setAttached_of_ne hne]
    exact hrest

theorem readWords_flag {s : Switch} {r r' : Reading} (hvalue : s.takesValue = false)
    (hword : Word.classify renderSwitches s.longName = .named s none)
    (hr : r.turnOn s = .ok r') (behindFile : Bool) (words : List String) :
    readWords renderSwitches r behindFile (s.longName :: words) =
      readWords renderSwitches r' false words := by
  have hne : s.longName ≠ Word.separator := by cases s <;> decide
  rw [readWords, if_neg hne, hword]
  dsimp only
  rw [if_neg (by simp [hvalue]), hr]
  rfl

theorem readWords_flags (o : RenderOptions) (words : List String) (r : Reading)
    (hhttp : r.options.http = false) (hverbose : r.options.verbose = false) (behindFile : Bool) :
    ∃ behindFile',
      readWords renderSwitches r behindFile (o.flags.map Switch.longName ++ words) =
        readWords renderSwitches
          { r with options := { r.options with http := o.http, verbose := o.verbose } }
          behindFile' words := by
  obtain ⟨file, ⟨config, request, persistent, http, encoding, verbose⟩, leftover⟩ := r
  obtain rfl : http = false := hhttp
  obtain rfl : verbose = false := hverbose
  unfold RenderOptions.flags
  cases o.http with
  | false =>
    cases o.verbose with
    | false => exact ⟨behindFile, rfl⟩
    | true => exact ⟨false, readWords_flag (s := .verbose) rfl (by decide) rfl behindFile words⟩
  | true =>
    cases o.verbose with
    | false => exact ⟨false, readWords_flag (s := .http) rfl (by decide) rfl behindFile words⟩
    | true =>
      refine ⟨false, (readWords_flag (s := .http) rfl (by decide) rfl behindFile _).trans ?_⟩
      exact readWords_flag (s := .verbose) rfl (by decide) rfl false words

end Invocation

open Invocation

/-- An option that keeps all its values collects a list of them one by one. Each new value goes
behind those that are there, which is why the induction speaks of any reading that it starts from.
-/
theorem foldl_set {s : Switch} {add : Reading → List String → Reading}
    (hnil : ∀ r, add r [] = r) (hcons : ∀ r v values, add (r.set s v) values = add r (v :: values))
    (values : List String) (r : Reading) :
    values.foldl (fun r value => r.set s value) r = add r values := by
  induction values generalizing r with
  | nil => exact (hnil r).symm
  | cons value values ih => rw [List.foldl_cons, ih, hcons]

theorem foldl_settings (o : RenderOptions) :
    o.settings.foldl (fun r e => r.set e.1 e.2) Reading.start =
      { Reading.start with options := { o with http := false, verbose := false } } := by
  have hrequest : ∀ (values : List String) (r : Reading),
      values.foldl (fun r value => r.set .request value) r =
        { r with options := { r.options with request := r.options.request ++ values } } :=
    foldl_set (fun r => by rw [List.append_nil]) fun r v values => by simp [Reading.set]
  have hpersistent : ∀ (values : List String) (r : Reading),
      values.foldl (fun r value => r.set .persistent value) r =
        { r with options := { r.options with persistent := r.options.persistent ++ values } } :=
    foldl_set (fun r => by rw [List.append_nil]) fun r v values => by simp [Reading.set]
  unfold RenderOptions.settings
  rw [List.foldl_append, List.foldl_append, List.foldl_append, List.foldl_map, List.foldl_map,
    List.foldl_map, List.foldl_map, hrequest, hpersistent]
  cases o.config <;> cases o.encoding <;> rfl

theorem takesValue_of_mem_settings {o : RenderOptions} {e : Switch × String}
    (h : e ∈ o.settings) : e.1.takesValue = true := by
  simp only [RenderOptions.settings, List.mem_append, List.mem_map] at h
  rcases h with ((⟨_, -, rfl⟩ | ⟨_, -, rfl⟩) | ⟨_, -, rfl⟩) | ⟨_, -, rfl⟩ <;> rfl

/-- No word in front of the separator is one, or asks for one of several options. All of them are
written out in full, with two dashes, so no beginning is left to be completed. -/
theorem classify_of_mem {o : RenderOptions} {word : String}
    (h : word ∈ o.settings.map (fun e => e.1.attach e.2) ++ o.flags.map Switch.longName) :
    word ≠ Word.separator ∧ Word.classify outerSwitches word ≠ .ambiguous ∧
      Word.classify renderSwitches word ≠ .ambiguous := by
  simp only [List.mem_append, List.mem_map] at h
  rcases h with ⟨e, hmem, rfl⟩ | ⟨s, hmem, rfl⟩
  · have hvalue := takesValue_of_mem_settings hmem
    refine ⟨e.1.attach_ne_separator e.2, Switch.classify_attach_outer hvalue e.2, ?_⟩
    rw [Switch.classify_attach_render hvalue]
    simp
  · have hflag : s = .http ∨ s = .verbose := by
      unfold RenderOptions.flags at hmem
      rcases List.mem_append.1 hmem with hmem | hmem <;> split at hmem <;> simp_all
    rcases hflag with rfl | rfl <;> decide

theorem anyAmbiguous_of_separator {known : List Switch} (words rest : List String)
    (h : ∀ word ∈ words, word ≠ Word.separator ∧ Word.classify known word ≠ .ambiguous) :
    Word.anyAmbiguous known (words ++ Word.separator :: rest) = false := by
  unfold Word.anyAmbiguous
  rw [List.takeWhile_append_of_pos fun word hmem => by simpa using (h word hmem).1,
    List.takeWhile_cons_of_neg (by simp), List.append_nil, List.any_eq_false]
  exact fun word hmem => by simpa using (h word hmem).2

/-- The words for an invocation are read as that invocation. A value that is the separator itself
has to be left out: it gets lost even where it is attached to an option. -/
theorem ofWords_words (o : RenderOptions) (file : String)
    (h : ∀ e ∈ o.settings, e.2 ≠ Word.separator) :
    Invocation.ofWords (o.words file) = .ok (.render file o) := by
  have hvalues : ∀ e ∈ o.settings, e.1.takesValue = true ∧ e.2 ≠ Word.separator :=
    fun e hmem => ⟨takesValue_of_mem_settings hmem, h e hmem⟩
  have houter : Word.anyAmbiguous outerSwitches (o.words file) = false := by
    refine anyAmbiguous_of_separator ("render" :: _) _ fun word hmem => ?_
    rcases List.mem_cons.1 hmem with rfl | hmem
    · decide
    · exact ⟨(classify_of_mem hmem).1, (classify_of_mem hmem).2.1⟩
  have hinner := anyAmbiguous_of_separator _ [file] fun word hmem =>
    (⟨(classify_of_mem (o := o) hmem).1, (classify_of_mem hmem).2.2⟩ :
      word ≠ Word.separator ∧ Word.classify renderSwitches word ≠ .ambiguous)
  obtain ⟨behindFile, hsettings⟩ := readWords_attach o.settings
    (o.flags.map Switch.longName ++ [Word.separator, file]) hvalues .start false
  rw [foldl_settings] at hsettings
  obtain ⟨behindFile', hflags⟩ := readWords_flags o [Word.separator, file]
    { Reading.start with options := { o with http := false, verbose := false } } rfl rfl behindFile
  have hread : readWords renderSwitches .start false (o.settings.map (fun e => e.1.attach e.2) ++
      o.flags.map Switch.longName ++ [Word.separator, file]) =
        .ok { Reading.start with file := some file, options := o } := by
    rw [List.append_assoc, hsettings, hflags, readWords, if_pos rfl]
    rfl
  have hcommand : Word.classify outerSwitches "render" = .plain := by decide
  rw [ofWords, houter, if_neg Bool.false_ne_true, RenderOptions.words, readOuter,
    if_neg (by decide), hcommand]
  dsimp only
  rw [ofCommand, if_pos rfl, readCommand, hinner, if_neg Bool.false_ne_true, hread]
  rfl

end Stencil
