import Stencil.Profile.Yaml.Word

/-!
# Nodes of a profile file

A file without comments is a tree of scalars, lists and mappings. What has a name can be referred
to again behind it, but not inside itself.

A mapping can take over the entries of other mappings, which then stand in front of its own; only a
mapping that does not is checked for keys that come twice.
-/

set_option autoImplicit false

namespace Stencil

namespace Yaml

inductive Node where
  | scalar (kind : Kind) (text : List Char)
  | list (items : List Node)
  | mapping (merged : Bool) (entries : List (Node × Node))
  /-- A mapping that is to take over what has no entries. -/
  | unmergeable

namespace Node

/-- The scalar that stands where nothing is written. -/
def empty : Node := .scalar .null []

def ofScalar (tag : Option Tag) (plain : Bool) (text : List Char) : Node :=
  match tag with
  | some (.kind k) => .scalar k text
  | some .implied => .scalar (.ofWord text) text
  | none => .scalar (if plain then .ofWord text else .text) text

/-! ## Merging -/

/-- The entries of a mapping to take over, or of several. Entries that come later win, so the
several are put in a row from the last to the first, which makes the first one count most. -/
def mergeable? : Node → Option (List (Node × Node))
  | .mapping _ entries => some entries
  | .list items =>
    let parts := items.mapM fun
      | .mapping _ entries => some entries
      | _ => none
    parts.map fun ps => ps.reverse.flatten
  | _ => none

/-- Splits entries into those that are taken over and a mapping's own. A second key for taking over
is refused once there is something taken over, and not before. -/
def splitMerge? : List (Node × Node) → List (Node × Node) →
    Option (List (Node × Node) × List (Node × Node))
  | merged, [] => some (merged, [])
  | merged, (.scalar .merge _, v) :: rest =>
    if merged.isEmpty then v.mergeable?.bind (splitMerge? · rest) else none
  | merged, (.scalar .equals s, v) :: rest =>
    (splitMerge? merged rest).map fun (m, own) => (m, (.scalar .text s, v) :: own)
  | merged, e :: rest => (splitMerge? merged rest).map fun (m, own) => (m, e :: own)

/-- The mapping of entries. What is taken over stands in front, so that a mapping's own entry under
the same key comes later and wins. -/
def ofEntries (entries : List (Node × Node)) : Node :=
  match splitMerge? [] entries with
  | some (merged, own) => .mapping (!merged.isEmpty) (merged ++ own)
  | none => .unmergeable

/-! ## Reading tokens -/

/-- The tokens to be read, why there are no more of them, and the nodes that have a name; a node
that is being read has none yet. -/
structure Supply where
  tokens : List Token
  fault : YamlFault
  names : Array (List Char × Option Node)

abbrev Reading := StateT Supply (Except YamlFault)

def peek : Reading Token := do
  let s ← get
  match s.tokens with
  | t :: _ => return t
  | [] => throw s.fault

def pass : Reading Unit := modify fun s => { s with tokens := s.tokens.drop 1 }

def passIf (t : Token) : Reading Bool := do
  if (← peek) = t then
    pass
    return true
  else return false

/-- Whether one of several tokens comes next. -/
def isNext (ts : List Token) : Reading Bool := return ts.contains (← peek)

/-- Passes the comma in front of every part of a collection but the first. -/
def passComma (first : Bool) : Reading Unit := do
  unless first do
    unless ← passIf .comma do throw .malformed

/-- The node that a name stands for. Of several with the same name it is the last one in front, and
one that is still being read can not be meant. -/
def named (name : List Char) : Reading Node := do
  match (← get).names.toList.reverse.lookup name with
  | some (some n) => return n
  | _ => throw .malformed

/-- Gives what is read a name, if there is one. -/
def naming (name : Option (List Char)) (read : Reading Node) : Reading Node :=
  match name with
  | none => read
  | some name => do
    let place := (← get).names.size
    modify fun s => { s with names := s.names.push (name, none) }
    let n ← read
    modify fun s => { s with names := s.names.setIfInBounds place (name, some n) }
    return n

/-- The name and the tag in front of a node, in either order. -/
def properties : Reading (Option (List Char) × Option Tag) := do
  match ← peek with
  | .anchor name =>
    pass
    match ← peek with
    | .tag t =>
      pass
      return (some name, some t)
    | _ => return (some name, none)
  | .tag t =>
    pass
    match ← peek with
    | .anchor name =>
      pass
      return (some name, some t)
    | _ => return (none, some t)
  | _ => return (none, none)

/-- A collection whose tag allows its kind. -/
def tagged (tag : Option Tag) (k : Kind) (read : Reading Node) : Reading Node := do
  let n ← read
  match tag with
  | some (.kind k') => if k' = k then return n else throw .malformed
  | _ => return n

mutual

/-- Reads a node. Blocks are nodes only where they are allowed, and a list may also stand in the
column of its key behind one. -/
def node (block besideKey : Bool) : Nat → Reading Node
  | 0 => throw .malformed
  | fuel + 1 => do
    if let .reference name ← peek then
      pass
      named name
    else
      let (name, tag) ← properties
      naming name (content block besideKey (name.isSome || tag.isSome) tag fuel)

/-- Reads a node without its name and tag; one that has either may be empty. -/
def content (block besideKey mayBeEmpty : Bool) (tag : Option Tag) : Nat → Reading Node
  | 0 => throw .malformed
  | fuel + 1 => do
    let t ← peek
    if besideKey && t = .item then
      tagged tag .list (return .list (← blockItems [.item, .key, .value, .blockEnd] [] fuel))
    else
      match t, block with
      | .scalar plain text, _ =>
        pass
        return .ofScalar tag plain text
      | .listOpen, _ =>
        pass
        tagged tag .list (return .list (← flowItems [] fuel))
      | .mappingOpen, _ =>
        pass
        tagged tag .mapping (return .ofEntries (← flowEntries [] fuel))
      | .blockList, true =>
        pass
        let items ← blockItems [.item, .blockEnd] [] fuel
        if ← passIf .blockEnd then tagged tag .list (return .list items) else throw .malformed
      | .blockMapping, true =>
        pass
        let entries ← blockEntries [] fuel
        if ← passIf .blockEnd then tagged tag .mapping (return .ofEntries entries)
        else throw .malformed
      | _, _ => if mayBeEmpty then return .ofScalar tag true [] else throw .malformed

/-- Reads a node unless one of several tokens comes next, in front of which it is empty. -/
def nodeUnless (ends : List Token) (block besideKey : Bool) : Nat → Reading Node
  | 0 => throw .malformed
  | fuel + 1 => do
    if ← isNext ends then return .empty else node block besideKey fuel

/-- Reads the value behind a colon; without a colon it is empty. -/
def valueOf (ends : List Token) (block besideKey : Bool) : Nat → Reading Node
  | 0 => throw .malformed
  | fuel + 1 => do
    if ← passIf .value then nodeUnless ends block besideKey fuel else return .empty

/-- Reads the items of a block behind their dashes; `ends` may follow the dash of an empty one. -/
def blockItems (ends : List Token) (items : List Node) : Nat → Reading (List Node)
  | 0 => throw .malformed
  | fuel + 1 => do
    if ← passIf .item then
      let n ← nodeUnless ends true false fuel
      blockItems ends (n :: items) fuel
    else return items.reverse

def blockEntries (entries : List (Node × Node)) : Nat → Reading (List (Node × Node))
  | 0 => throw .malformed
  | fuel + 1 => do
    let ends := [.key, .value, .blockEnd]
    if ← isNext [.key, .value] then
      let k ← if ← passIf .key then nodeUnless ends true true fuel else pure .empty
      let v ← valueOf ends true true fuel
      blockEntries ((k, v) :: entries) fuel
    else return entries.reverse

/-- Reads the items of a list in brackets, in which a key with its value is a mapping. -/
def flowItems (items : List Node) : Nat → Reading (List Node)
  | 0 => throw .malformed
  | fuel + 1 => do
    if ← passIf .listClose then return items.reverse
    passComma items.isEmpty
    if ← passIf .key then
      let k ← nodeUnless [.value, .comma, .listClose] false false fuel
      let v ← valueOf [.comma, .listClose] false false fuel
      flowItems (.ofEntries [(k, v)] :: items) fuel
    else if ← passIf .listClose then return items.reverse
    else
      let n ← node false false fuel
      flowItems (n :: items) fuel

/-- Reads the entries of a mapping in braces. A key may stand alone, and then has nothing under it;
a colon may stand without a key. -/
def flowEntries (entries : List (Node × Node)) : Nat → Reading (List (Node × Node))
  | 0 => throw .malformed
  | fuel + 1 => do
    let ends := [.comma, .mappingClose]
    if ← passIf .mappingClose then return entries.reverse
    passComma entries.isEmpty
    if ← passIf .key then
      let k ← nodeUnless (.value :: ends) false false fuel
      let v ← valueOf ends false false fuel
      flowEntries ((k, v) :: entries) fuel
    else if ← isNext [.value] then
      let v ← valueOf ends false false fuel
      flowEntries ((.empty, v) :: entries) fuel
    else if ← passIf .mappingClose then return entries.reverse
    else
      let k ← node false false fuel
      flowEntries ((k, .empty) :: entries) fuel

end

/-! ## Documents -/

/-- Passes the settings in front of a document. A version must be the first one or a part of it, and
is given once. -/
def settings (versionGiven : Bool) : Nat → Reading Unit
  | 0 => throw .malformed
  | fuel + 1 => do
    match ← peek with
    | .directive none =>
      pass
      settings versionGiven fuel
    | .directive (some major) =>
      pass
      if versionGiven || major ≠ 1 then throw .malformed else settings true fuel
    | _ => return

def root (fuel : Nat) : Reading Node := do
  match ← peek with
  | .directive _ | .documentStart =>
    settings false fuel
    if ← passIf .documentStart then
      match ← peek with
      | .directive _ | .documentStart | .documentEnd | .finish => return .empty
      | _ => node true false fuel
    else throw .malformed
  | _ => node true false fuel

/-- Reads the only document of a file, if there is one. A second document is refused: a profile is
one. -/
def document (fuel : Nat) : Reading (Option Node) := do
  if ← passIf .finish then return none
  else
    let n ← root fuel
    let _ ← passIf .documentEnd
    if ← passIf .finish then return some n else throw .malformed

/-- The root of a file whose tokens are given. -/
def ofTokens (ts : List Token) (fault : YamlFault) : Except YamlFault (Option Node) :=
  (document (8 * ts.length + 8)).run' ⟨ts, fault, #[]⟩

end Node

end Yaml

end Stencil
