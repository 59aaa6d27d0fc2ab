import Mathlib.Control.Monad.Basic
import Stencil.Profile
import Stencil.Proofs.Steps

/-!
# Which data is a profile

What kinds of data the fields of a profile can have is written down here without the reader that
checks them (`WellTyped`). There are two readings of it. In the documented one, a collection that is
not given is absent or null, and the domain and the path of a cookie are texts. The reader asks for
less: all data that counts as void passes for a collection, and it does not look at those two parts
of a cookie. Between the two readings stands exactly what `Strict` says.

Every function of the reader decides one condition on the data (`Decides`): it succeeds on data that
meets it and reports all other data. The conditions of several steps join (`Decides.bind`), so that
the condition of the whole reader is the list of its fields. The one step that does not report all
that it refuses is the one that lists unknown fields, since a key that is no text can not be listed.
-/

set_option autoImplicit false

namespace Stencil

namespace Raw

/-! ## Kinds of data -/

def IsText : Raw → Prop
  | .text _ => True
  | _ => False

def IsInteger : Raw → Prop
  | .integer _ => True
  | _ => False

/-- A text, a number or a truth value. -/
def IsScalar : Raw → Prop
  | .text _ | .integer _ | .double _ | .bool _ => True
  | _ => False

def IsScalarMap : Raw → Prop
  | .mapping entries => ∀ e ∈ entries, e.2.IsScalar
  | _ => False

end Raw

/-- A fault that is reported as a bad profile. The others are those of what runs while a report is
being made or a scalar is read, and break the reading off with a fault that no caller expects. -/
def ProfileFault.IsReport : ProfileFault → Prop
  | .unknownFields _ | .unfit _ _ _ | .incompleteCookie _ | .notMapping _ | .malformed _ => True
  | .unnamedField _ | .unorderedFields | .unfitScalar _ | .unfitKey _ | .outOfRange => False

namespace Profile

/-! ## Typed data -/

variable {entries : List (Raw × Raw)} {name : String} {Kind Kind' : Raw → Prop}

def Known (entries : List (Raw × Raw)) : Prop := ∀ e ∈ entries, ∃ name ∈ fields, e.1 = .text name

def Named (entries : List (Raw × Raw)) : Prop := ∀ e ∈ entries, e.1.IsText

theorem Known.named (h : Known entries) : Named entries := by
  intro e he
  obtain ⟨name, -, hkey⟩ := h e he
  rw [hkey]
  trivial

def Admits (entries : List (Raw × Raw)) (name : String) (Kind : Raw → Prop) : Prop :=
  ∀ r, Raw.find? entries name = some r → Kind r

def Requires (entries : List (Raw × Raw)) (name : String) (Kind : Raw → Prop) : Prop :=
  ∃ r, Raw.find? entries name = some r ∧ Kind r

theorem Admits.mono (h : Admits entries name Kind) (himp : ∀ r, Kind r → Kind' r) :
    Admits entries name Kind' :=
  fun r hr => himp r (h r hr)

theorem admits_of_none (h : Raw.find? entries name = none) : Admits entries name Kind := by
  intro r hr
  rw [h] at hr
  cases hr

theorem admits_iff_of_some {r : Raw} (h : Raw.find? entries name = some r) :
    Admits entries name Kind ↔ Kind r := by
  constructor
  · intro hadmits
    exact hadmits r h
  · intro hkind r' hr'
    rw [h] at hr'
    cases hr'
    exact hkind

theorem requires_iff_of_some {r : Raw} (h : Raw.find? entries name = some r) :
    Requires entries name Kind ↔ Kind r := by
  constructor
  · rintro ⟨r', hr', hkind⟩
    rw [h] at hr'
    cases hr'
    exact hkind
  · intro hkind
    exact ⟨r, h, hkind⟩

theorem not_requires_of_none (h : Raw.find? entries name = none) :
    ¬ Requires entries name Kind := by
  rintro ⟨r, hr, -⟩
  rw [h] at hr
  cases hr

/-- How much is asked of the data of a profile. What is documented and what is checked differ in two
points only, so these are parameters of one typing rather than two typings. -/
structure Typing where
  /-- Data that stands for a collection that is not given. -/
  Nothing : Raw → Prop
  /-- Data that the domain or the path of a cookie can be. -/
  Part : Raw → Prop

def Typing.documented : Typing where
  Nothing r := r = .null
  Part r := r = .null ∨ r.IsText

def Typing.checked : Typing where
  Nothing r := r.isVoid = true
  Part _ := True

structure TypedCookie (t : Typing) (entries : List (Raw × Raw)) : Prop where
  name : Requires entries "name" Raw.IsScalar
  value : Requires entries "value" Raw.IsScalar
  maxAge : Admits entries "max_age" fun r => r = .null ∨ r.IsInteger
  domain : Admits entries "domain" t.Part
  path : Admits entries "path" t.Part

def IsCookie (t : Typing) : Raw → Prop
  | .mapping entries => TypedCookie t entries
  | _ => False

def IsCookieList (t : Typing) : Raw → Prop
  | .list items => ∀ r ∈ items, IsCookie t r
  | _ => False

/-- The entries of a mapping that is a profile. All fields can be left out, and no other field may
be there. -/
structure WellTyped (t : Typing) (entries : List (Raw × Raw)) : Prop where
  known : Known entries
  encoding : Admits entries "encoding" Raw.IsText
  mimeType : Admits entries "mime_type" Raw.IsText
  statusText : Admits entries "status_text" Raw.IsText
  statusCode : Admits entries "status_code" Raw.IsInteger
  parameters : Admits entries "parameters" fun r => t.Nothing r ∨ r.IsScalarMap
  persistentParameters :
    Admits entries "persistent_parameters" fun r => t.Nothing r ∨ r.IsScalarMap
  cookies : Admits entries "cookies" fun r => t.Nothing r ∨ IsCookieList t r

/-! ### Between the two readings -/

/-- Data that is nothing or the given collection without elements, if it is void. Of all that is
void these two are what the description allows for a collection; the reader takes any of it. -/
def VoidAs (empty r : Raw) : Prop := r.isVoid = true → r = .null ∨ r = empty

/-- The domain and the path of every cookie of a list are texts. -/
def PartsTyped : Raw → Prop
  | .list items => ∀ entries, .mapping entries ∈ items →
      Admits entries "domain" Typing.documented.Part ∧ Admits entries "path" Typing.documented.Part
  | _ => True

/-- Even what the reader does not look at is as it is documented. These are the domain and the path
of a cookie, and data that is void and stands for a collection, whatever kind it is of. -/
structure Strict (entries : List (Raw × Raw)) : Prop where
  parameters : Admits entries "parameters" (VoidAs (.mapping []))
  persistentParameters : Admits entries "persistent_parameters" (VoidAs (.mapping []))
  cookies : Admits entries "cookies" (VoidAs (.list []))
  parts : Admits entries "cookies" PartsTyped

theorem nothing_or_documented_iff {empty r : Raw} (hempty : Kind empty)
    (hvoid : Kind r → r.isVoid = true → r = empty) : Typing.documented.Nothing r ∨ Kind r ↔
      (Typing.checked.Nothing r ∨ Kind r) ∧ VoidAs empty r := by
  constructor
  · rintro (rfl | hkind)
    · exact ⟨.inl rfl, fun _ => .inl rfl⟩
    · exact ⟨.inr hkind, fun h => .inr (hvoid hkind h)⟩
  · rintro ⟨hnothing | hkind, has⟩
    · rcases has hnothing with rfl | rfl
      · exact .inl rfl
      · exact .inr hempty
    · exact .inr hkind

theorem scalarMap_documented_iff (r : Raw) : Typing.documented.Nothing r ∨ r.IsScalarMap ↔
    (Typing.checked.Nothing r ∨ r.IsScalarMap) ∧ VoidAs (.mapping []) r := by
  refine nothing_or_documented_iff (List.forall_mem_nil _) fun hmap hvoid => ?_
  cases r with
  | mapping fields => exact congrArg Raw.mapping (List.isEmpty_iff.1 hvoid)
  | _ => exact hmap.elim

theorem typedCookie_documented_iff : TypedCookie .documented entries ↔
    TypedCookie .checked entries ∧ Admits entries "domain" Typing.documented.Part ∧
      Admits entries "path" Typing.documented.Part := by
  constructor
  · intro h
    have hany : ∀ r, Typing.checked.Part r := fun _ => trivial
    exact ⟨⟨h.name, h.value, h.maxAge, fun r _ => hany r, fun r _ => hany r⟩, h.domain, h.path⟩
  · rintro ⟨h, hdomain, hpath⟩
    exact ⟨h.name, h.value, h.maxAge, hdomain, hpath⟩

theorem cookieList_documented_iff (r : Raw) : IsCookieList .documented r ↔
    IsCookieList .checked r ∧ PartsTyped r := by
  cases r with
  | list items =>
    constructor
    · intro h
      refine ⟨fun item hitem => ?_, fun entries hitem => ?_⟩
      · have hcookie := h item hitem
        cases item with
        | mapping entries => exact (typedCookie_documented_iff.1 hcookie).1
        | _ => exact hcookie.elim
      · exact (typedCookie_documented_iff.1 (h _ hitem)).2
    · rintro ⟨h, hparts⟩ item hitem
      have hcookie := h item hitem
      cases item with
      | mapping entries => exact typedCookie_documented_iff.2 ⟨hcookie, hparts entries hitem⟩
      | _ => exact hcookie.elim
  | _ => exact ⟨False.elim, fun h => h.1.elim⟩

theorem cookies_documented_iff (r : Raw) :
    Typing.documented.Nothing r ∨ IsCookieList .documented r ↔
      (Typing.checked.Nothing r ∨ IsCookieList .checked r) ∧ VoidAs (.list []) r ∧
        PartsTyped r := by
  have hvoid : IsCookieList .checked r → r.isVoid = true → r = .list [] := by
    intro hlist hvoid
    cases r with
    | list items => exact congrArg Raw.list (List.isEmpty_iff.1 hvoid)
    | _ => exact hlist.elim
  have hparts : Typing.documented.Nothing r → PartsTyped r := by
    rintro rfl
    trivial
  rw [cookieList_documented_iff, ← and_assoc,
    ← nothing_or_documented_iff (List.forall_mem_nil _) hvoid, or_and_right]
  exact or_congr_left (and_iff_left_of_imp hparts).symm

theorem wellTyped_documented_iff :
    WellTyped .documented entries ↔ WellTyped .checked entries ∧ Strict entries := by
  constructor
  · intro h
    have hparameters := h.parameters.mono fun r => (scalarMap_documented_iff r).1
    have hpersistent := h.persistentParameters.mono fun r => (scalarMap_documented_iff r).1
    have hcookies := h.cookies.mono fun r => (cookies_documented_iff r).1
    exact ⟨⟨h.known, h.encoding, h.mimeType, h.statusText, h.statusCode,
        hparameters.mono fun _ => And.left, hpersistent.mono fun _ => And.left,
        hcookies.mono fun _ => And.left⟩,
      ⟨hparameters.mono fun _ => And.right, hpersistent.mono fun _ => And.right,
        hcookies.mono fun _ hr => hr.2.1, hcookies.mono fun _ hr => hr.2.2⟩⟩
  · rintro ⟨h, hstrict⟩
    exact ⟨h.known, h.encoding, h.mimeType, h.statusText, h.statusCode,
      fun r hr => (scalarMap_documented_iff r).2 ⟨h.parameters r hr, hstrict.parameters r hr⟩,
      fun r hr => (scalarMap_documented_iff r).2
        ⟨h.persistentParameters r hr, hstrict.persistentParameters r hr⟩,
      fun r hr => (cookies_documented_iff r).2
        ⟨h.cookies r hr, hstrict.cookies r hr, hstrict.parts r hr⟩⟩

/-! ## Steps that decide a condition -/

variable {α β : Type} {x : Except ProfileFault α} {P Q : Prop}

/-- A step succeeds if a condition holds, and reports a bad profile otherwise. Both parts go through
a sequence of steps together: what it takes to succeed is the conjunction, and the first step that
fails reports. -/
structure Decides (x : Except ProfileFault α) (P : Prop) : Prop where
  ok_iff : (∃ a, x = .ok a) ↔ P
  reports : ∀ fault, x = .error fault → fault.IsReport

namespace Decides

theorem ok {a : α} (h : P) : Decides (.ok a : Except ProfileFault α) P where
  ok_iff := ⟨fun _ => h, fun _ => ⟨a, rfl⟩⟩
  reports := by
    rintro fault ⟨⟩

theorem error {fault : ProfileFault} (hreport : fault.IsReport) (h : ¬ P) :
    Decides (.error fault : Except ProfileFault α) P where
  ok_iff := by
    refine ⟨?_, fun hp => absurd hp h⟩
    rintro ⟨a, ⟨⟩⟩
  reports := by
    rintro _ ⟨⟩
    exact hreport

theorem congr (h : Decides x P) (hiff : P ↔ Q) : Decides x Q where
  ok_iff := h.ok_iff.trans hiff
  reports := h.reports

theorem bind {f : α → Except ProfileFault β} (hx : Decides x P) (hf : ∀ a, Decides (f a) Q) :
    Decides (x >>= f) (P ∧ Q) where
  ok_iff := by
    constructor
    · rintro ⟨b, hb⟩
      obtain ⟨a, ha, hfa⟩ := bind_eq_ok_iff.1 hb
      exact ⟨hx.ok_iff.1 ⟨a, ha⟩, (hf a).ok_iff.1 ⟨b, hfa⟩⟩
    · rintro ⟨hp, hq⟩
      obtain ⟨a, ha⟩ := hx.ok_iff.2 hp
      obtain ⟨b, hb⟩ := (hf a).ok_iff.2 hq
      exact ⟨b, bind_eq_ok_iff.2 ⟨a, ha, hb⟩⟩
  reports := by
    intro fault hfault
    rcases bind_eq_error_iff.1 hfault with hfirst | ⟨a, -, hlater⟩
    · exact hx.reports fault hfirst
    · exact (hf a).reports fault hlater

theorem map {g : α → β} (hx : Decides x P) : Decides (x.map g) P where
  ok_iff := by
    rw [← hx.ok_iff]
    constructor
    · rintro ⟨b, hb⟩
      obtain ⟨a, ha, -⟩ := map_eq_ok_iff.1 hb
      exact ⟨a, ha⟩
    · rintro ⟨a, ha⟩
      exact ⟨g a, map_eq_ok_iff.2 ⟨a, ha, rfl⟩⟩
  reports := fun fault hfault => hx.reports fault (map_eq_error_iff.1 hfault)

end Decides

/-! ### The functions of the reader -/

theorem decides_textField (entries : List (Raw × Raw)) (name default : String) :
    Decides (textField entries name default) (Admits entries name Raw.IsText) := by
  unfold textField
  cases hfind : Raw.find? entries name with
  | none => exact .ok (admits_of_none hfind)
  | some r =>
    refine Decides.congr ?_ (admits_iff_of_some hfind).symm
    cases r with
    | text s => exact .ok trivial
    | _ => exact .error trivial id

theorem decides_integerField (entries : List (Raw × Raw)) (name : String) (default : Int) :
    Decides (integerField entries name default) (Admits entries name Raw.IsInteger) := by
  unfold integerField
  cases hfind : Raw.find? entries name with
  | none => exact .ok (admits_of_none hfind)
  | some r =>
    refine Decides.congr ?_ (admits_iff_of_some hfind).symm
    cases r with
    | integer n => exact .ok trivial
    | _ => exact .error trivial id

theorem decides_scalarText (path : String) (r : Raw) : Decides (scalarText path r) r.IsScalar := by
  cases r with
  | bool b => exact .ok trivial
  | text s => exact .ok trivial
  | integer n => exact .ok trivial
  | double x => exact .ok trivial
  | _ => exact .error trivial id

theorem decides_textEntries (name : String) (fields : List (Raw × Raw)) :
    Decides (textEntries name fields) (∀ e ∈ fields, e.2.IsScalar) := by
  induction fields with
  | nil => exact .ok (List.forall_mem_nil _)
  | cons field rest ih =>
    obtain ⟨k, v⟩ := field
    have hrest := (decides_scalarText (name ++ "." ++ k.display) v).bind fun value =>
      ih.bind fun later => Decides.ok (a := (k.display, value) :: later) trivial
    refine hrest.congr ?_
    rw [List.forall_mem_cons, and_true]

/-- Data of a kind that is not asked for passes if it is void. The reader looks at whether there is
anything in it before it looks at what kind it is. -/
theorem decides_void (a : α) (path expected : String) {r : Raw} (hkind : ¬ P) :
    Decides (if r.isVoid then .ok a else unfit path expected r)
      (Typing.checked.Nothing r ∨ P) := by
  split
  · rename_i hvoid
    exact .ok (.inl hvoid)
  · rename_i hvoid
    refine .error trivial ?_
    rintro (hnothing | hp)
    · exact hvoid hnothing
    · exact hkind hp

theorem decides_textMap (entries : List (Raw × Raw)) (name : String) :
    Decides (textMap entries name)
      (Admits entries name fun r => Typing.checked.Nothing r ∨ r.IsScalarMap) := by
  unfold textMap
  cases hfind : Raw.find? entries name with
  | none => exact .ok (admits_of_none hfind)
  | some r =>
    refine Decides.congr ?_ (admits_iff_of_some hfind).symm
    cases r with
    | mapping fields =>
      refine (decides_textEntries name fields).map.congr ⟨.inr, ?_⟩
      rintro (hvoid | hmap)
      · rw [List.isEmpty_iff.1 hvoid]
        exact List.forall_mem_nil _
      · exact hmap
    | _ => exact decides_void _ name "mapping" id

theorem decides_maxAge (path : String) (entries : List (Raw × Raw)) :
    Decides (maxAge path entries) (Admits entries "max_age" fun r => r = .null ∨ r.IsInteger) := by
  unfold maxAge
  cases hfind : Raw.find? entries "max_age" with
  | none => exact .ok (admits_of_none hfind)
  | some r =>
    refine Decides.congr ?_ (admits_iff_of_some hfind).symm
    cases r with
    | null => exact .ok (.inl rfl)
    | integer n => exact .ok (.inr trivial)
    | _ => exact .error trivial (by rintro (⟨⟨⟩⟩ | ⟨⟨⟩⟩))

theorem decides_cookie (path : String) (r : Raw) :
    Decides (cookie path r) (IsCookie .checked r) := by
  cases r with
  | mapping entries =>
    show Decides _ (TypedCookie .checked entries)
    rw [cookie]
    cases hname : Raw.find? entries "name" with
    | none => exact .error trivial fun h => not_requires_of_none hname h.name
    | some name =>
      cases hvalue : Raw.find? entries "value" with
      | none => exact .error trivial fun h => not_requires_of_none hvalue h.value
      | some value =>
        -- The domain and the path are no step of the reading, so nothing is asked of them.
        have hparts := (decides_maxAge path entries).bind fun age =>
          (decides_scalarText (path ++ ".name") name).bind fun n =>
            (decides_scalarText (path ++ ".value") value).bind fun v =>
              Decides.ok (a := (⟨some n, some v, age, uncheckedPart entries "domain",
                uncheckedPart entries "path"⟩ : Cookie)) trivial
        refine hparts.congr ⟨?_, ?_⟩
        · rintro ⟨hage, hn, hv, -⟩
          exact ⟨⟨name, hname, hn⟩, ⟨value, hvalue, hv⟩, hage, fun _ _ => trivial,
            fun _ _ => trivial⟩
        · intro h
          exact ⟨h.maxAge, (requires_iff_of_some hname).1 h.name,
            (requires_iff_of_some hvalue).1 h.value, trivial⟩
  | _ => exact .error trivial id

theorem decides_cookiesFrom (index : Nat) (items : List Raw) :
    Decides (cookiesFrom index items) (∀ r ∈ items, IsCookie .checked r) := by
  induction items generalizing index with
  | nil => exact .ok (List.forall_mem_nil _)
  | cons r rest ih =>
    have hrest := (decides_cookie ("cookies[" ++ toString index ++ "]") r).bind fun c =>
      (ih (index + 1)).bind fun later => Decides.ok (a := c :: later) trivial
    refine hrest.congr ?_
    rw [List.forall_mem_cons, and_true]

theorem decides_cookieList (entries : List (Raw × Raw)) :
    Decides (cookieList entries)
      (Admits entries "cookies" fun r => Typing.checked.Nothing r ∨ IsCookieList .checked r) := by
  unfold cookieList
  cases hfind : Raw.find? entries "cookies" with
  | none => exact .ok (admits_of_none hfind)
  | some r =>
    refine Decides.congr ?_ (admits_iff_of_some hfind).symm
    cases r with
    | list items =>
      refine (decides_cookiesFrom 0 items).congr ⟨.inr, ?_⟩
      rintro (hvoid | hlist)
      · rw [List.isEmpty_iff.1 hvoid]
        exact List.forall_mem_nil _
      · exact hlist
    | _ => exact decides_void _ "cookies" "list" id

/-! ### Unknown fields -/

theorem isUnknown_eq_false_iff (r : Raw) :
    isUnknown r = false ↔ ∃ name ∈ fields, r = .text name := by
  cases r with
  | text s => simp [isUnknown]
  | _ => simp [isUnknown]

theorem filter_isUnknown_iff :
    ((entries.map (·.1)).filter isUnknown).isEmpty = true ↔ Known entries := by
  rw [List.isEmpty_iff, List.filter_eq_nil_iff, List.forall_mem_map]
  refine forall₂_congr fun e _ => ?_
  rw [Bool.not_eq_true]
  exact isUnknown_eq_false_iff e.1

theorem length_filterMap_isUnknown_iff {g : Raw → Option String}
    (hg : ∀ r, (g r).isSome = true ↔ r.IsText) :
    (((entries.map (·.1)).filter isUnknown).filterMap g).length =
      ((entries.map (·.1)).filter isUnknown).length ↔ Named entries := by
  rw [List.filterMap_length_eq_length]
  constructor
  · intro h e he
    by_cases hunknown : isUnknown e.1 = true
    · exact (hg e.1).1 (h e.1 (List.mem_filter.2 ⟨List.mem_map_of_mem he, hunknown⟩))
    · obtain ⟨name, -, hkey⟩ := (isUnknown_eq_false_iff e.1).1 (Bool.not_eq_true _ ▸ hunknown)
      rw [hkey]
      trivial
  · intro h r hr
    obtain ⟨e, he, rfl⟩ := List.mem_map.1 (List.mem_filter.1 hr).1
    exact (hg e.1).2 (h e he)

/-- All that the step about unknown fields can do. It is the only one that can break off: it sorts
the keys, which takes keys that can be compared, and lists them, which takes texts. -/
theorem unknownFields_cases (entries : List (Raw × Raw)) :
    (Known entries ∧ unknownFields entries = .ok ()) ∨
    (¬ Known entries ∧ Named entries ∧
      ∃ names, unknownFields entries = .error (.unknownFields names)) ∨
    (¬ Named entries ∧ (unknownFields entries = .error .unorderedFields ∨
      ∃ kind, unknownFields entries = .error (.unnamedField kind))) := by
  unfold unknownFields
  dsimp only
  split
  · rename_i hempty
    exact .inl ⟨filter_isUnknown_iff.1 hempty, rfl⟩
  · rename_i hunknown
    refine .inr ?_
    split
    · rename_i hlength
      refine .inl ⟨fun h => hunknown (filter_isUnknown_iff.2 h), ?_, _, rfl⟩
      refine (length_filterMap_isUnknown_iff ?_).1 hlength
      intro r
      cases r <;> simp [Raw.IsText]
    · rename_i hlength
      refine .inr ⟨fun h => hlength ((length_filterMap_isUnknown_iff ?_).2 h), ?_⟩
      · intro r
        cases r <;> simp [Raw.IsText]
      · split
        · exact .inr ⟨_, rfl⟩
        · exact .inl rfl

theorem decides_unknownFields (h : Named entries) :
    Decides (unknownFields entries) (Known entries) := by
  rcases unknownFields_cases entries with ⟨hknown, hok⟩ | ⟨hunknown, -, names, herror⟩ | ⟨hnot, -⟩
  · rw [hok]
    exact .ok hknown
  · rw [herror]
    exact .error trivial hunknown
  · exact absurd h hnot

/-! ## The whole profile -/

theorem decides_ofEntries (h : Named entries) :
    Decides (ofEntries entries) (WellTyped .checked entries) := by
  have hsteps := (decides_unknownFields h).bind fun _ =>
    (decides_textField entries "encoding" default.encoding).bind fun encoding =>
    (decides_textField entries "mime_type" default.mimeType).bind fun mimeType =>
    (decides_textField entries "status_text" default.statusText).bind fun statusText =>
    (decides_integerField entries "status_code" default.statusCode).bind fun statusCode =>
    (decides_textMap entries "parameters").bind fun parameters =>
    (decides_textMap entries "persistent_parameters").bind fun persistentParameters =>
    (decides_cookieList entries).bind fun cookies =>
    Decides.ok (a := (⟨encoding, mimeType, statusCode, statusText, parameters,
      persistentParameters, cookies⟩ : Profile)) trivial
  refine Decides.congr hsteps ⟨?_, ?_⟩
  · rintro ⟨hknown, hencoding, hmime, htext, hcode, hparameters, hpersistent, hcookies, -⟩
    exact ⟨hknown, hencoding, hmime, htext, hcode, hparameters, hpersistent, hcookies⟩
  · intro ht
    exact ⟨ht.known, ht.encoding, ht.mimeType, ht.statusText, ht.statusCode, ht.parameters,
      ht.persistentParameters, ht.cookies, trivial⟩

/-- A mapping with texts as keys is accepted as a profile if and only if its fields are as the
reader asks for; it is typed as it is documented if and only if, besides, what the reader does not
look at is so too; and a mapping that is not accepted is reported. -/
theorem accepts_iff_wellTyped (entries : List (Raw × Raw)) (h : Named entries) :
    ((∃ p, ofEntries entries = .ok p) ↔ WellTyped .checked entries) ∧
      (WellTyped .documented entries ↔ (∃ p, ofEntries entries = .ok p) ∧ Strict entries) ∧
      ∀ fault, ofEntries entries = .error fault → fault.IsReport := by
  have hdecides := decides_ofEntries h
  refine ⟨hdecides.ok_iff, ?_, hdecides.reports⟩
  rw [hdecides.ok_iff]
  exact wellTyped_documented_iff

def numberedDomain : List (Raw × Raw) :=
  [(.text "cookies", .list [.mapping [(.text "name", .text "a"), (.text "value", .text "b"),
    (.text "domain", .integer 5)]])]

theorem accepts_iff_wellTyped_numberedDomain :
    Named numberedDomain ∧ (∃ p, ofEntries numberedDomain = .ok p) ∧
      WellTyped .checked numberedDomain := by
  have hnamed : Named numberedDomain := List.forall_mem_singleton.2 trivial
  have haccepted : ∃ p, ofEntries numberedDomain = .ok p := ⟨_, rfl⟩
  exact ⟨hnamed, haccepted, (accepts_iff_wellTyped numberedDomain hnamed).1.1 haccepted⟩

theorem not_accepts_iff_documented :
    ¬ ∀ entries, Named entries →
      ((∃ p, ofEntries entries = .ok p) ↔ WellTyped .documented entries) := by
  intro h
  have htyped := (h numberedDomain (List.forall_mem_singleton.2 trivial)).1 ⟨_, rfl⟩
  rcases htyped.cookies _ rfl with hnull | hlist
  · cases hnull
  · have hcookie := List.forall_mem_singleton.1 hlist
    rcases hcookie.domain _ rfl with hnull | htext
    · cases hnull
    · exact htext

/-! ### Keys that are no texts -/

theorem ofEntries_of_unknownFields {fault : ProfileFault}
    (h : unknownFields entries = .error fault) : ofEntries entries = .error fault :=
  bind_eq_error_iff.2 (.inl h)

/-- Under a key that is no text the reading breaks off. It is unknown in any case, for all known
fields are texts, and then the step about unknown fields comes to it. -/
theorem exists_break_of_not_named (h : ¬ Named entries) : ∃ fault,
    ofEntries entries = .error fault ∧
      (fault = .unorderedFields ∨ ∃ kind, fault = .unnamedField kind) := by
  rcases unknownFields_cases entries with ⟨hknown, -⟩ | ⟨-, hnamed, -⟩ | ⟨-, horder | ⟨kind, hkind⟩⟩
  · exact absurd hknown.named h
  · exact absurd hnamed h
  · exact ⟨_, ofEntries_of_unknownFields horder, .inl rfl⟩
  · exact ⟨_, ofEntries_of_unknownFields hkind, .inr ⟨kind, rfl⟩⟩

/-- Whatever the data of a profile is, it is reported if it is not accepted, provided that every key
at its top is a text; if one is not, the reading breaks off over the unknown fields, which either
can not be put in order or can not be listed. Keys further down can be of any kind. -/
theorem reports_iff_named (entries : List (Raw × Raw)) :
    ((∀ fault, ofEntries entries = .error fault → fault.IsReport) ↔ Named entries) ∧
      ∀ fault, ofEntries entries = .error fault →
        fault.IsReport ∨ fault = .unorderedFields ∨ ∃ kind, fault = .unnamedField kind := by
  by_cases hnamed : Named entries
  · have hreports := (decides_ofEntries hnamed).reports
    exact ⟨⟨fun _ => hnamed, fun _ => hreports⟩, fun fault h => .inl (hreports fault h)⟩
  · obtain ⟨broken, hbroken, hkind⟩ := exists_break_of_not_named hnamed
    constructor
    · refine ⟨fun h => ?_, fun h => absurd h hnamed⟩
      have hreport := h broken hbroken
      rcases hkind with rfl | ⟨kind, rfl⟩
      · exact hreport.elim
      · exact hreport.elim
    · intro fault hfault
      rw [hbroken] at hfault
      cases hfault
      exact .inr hkind

/-- A key that is a number is not reported, and a file can hold one: whoever reads `1: a` as the
entry of a text under a number gets there. -/
theorem not_reports_numberedKey :
    (¬ ∀ entries fault, ofEntries entries = .error fault → fault.IsReport) ∧
      ∀ read : Reader, read "1: a" = .ok (.mapping [(.integer 1, .text "a")]) →
        ¬ ∀ content entries fault, read (unifyNewlines content) = .ok (.mapping entries) →
          ofEntries entries = .error fault → fault.IsReport := by
  have hfault : ofEntries [(.integer 1, .text "a")] = .error (.unnamedField "int") := rfl
  refine ⟨fun h => h _ _ hfault, fun read hread h => ?_⟩
  exact h "1: a" _ _ hread hfault

example : (ofFile "profile" (some "1: a")).map (fun _ => ()) = .error (.unnamedField "int") := by
  decide +kernel

end Profile

end Stencil
