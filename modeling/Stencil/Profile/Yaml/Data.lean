import Stencil.Profile.Yaml.Node
import Stencil.Profile.Yaml.Token.Stream

/-!
# The data of a profile file

Scalars become data of their kinds, lists become lists and mappings become mappings, in which no
key comes twice. A list can be a key and then becomes a row; a mapping cannot.

If several things are wrong, the one in the outermost collection is reported, and among those the
first one. What is wrong with a key counts where the key stands.
-/

set_option autoImplicit false

namespace Stencil

namespace Yaml

/-- What is wrong with a node, and how many collections deep inside it. A collection is put together
before its parts are, so that the outermost flaw is the one that is met first; the depth keeps this
order while the data is made from the inside out. -/
structure Flaw where
  depth : Nat
  fault : YamlFault

abbrev Reckoning (α : Type) := Except Flaw α

def Reckoning.refuse {α : Type} (fault : YamlFault) : Reckoning α := .error ⟨0, fault⟩

def Reckoning.here {α : Type} (r : Reckoning α) : Reckoning α := r.mapError ({ · with depth := 0 })

def Reckoning.deeper {α : Type} (r : Reckoning α) : Reckoning α :=
  r.mapError fun f => { f with depth := f.depth + 1 }

/-- The better reported one of two flaws, of which the first stands in front. -/
def Flaw.first (f g : Flaw) : Flaw := if g.depth < f.depth then g else f

/-- All data of a collection, or the flaw that is to be reported. Every part is looked at, also
behind one with a flaw, since a later part may have one that lies less deep. -/
def collect {α : Type} : List (Reckoning α) → Reckoning (List α)
  | [] => .ok []
  | r :: rs =>
    match r, collect rs with
    | .ok a, .ok as => .ok (a :: as)
    | .ok _, .error f => .error f
    | .error f, .ok _ => .error f
    | .error f, .error g => .error (f.first g)

/-- What keeps a row from being a key: the first data in it that can still change. -/
def unfitPart? (items : List Raw) : Option Raw :=
  items.find? fun
    | .list _ | .mapping _ => true
    | _ => false

/-- The key that data is. A list becomes a row here, whatever is in it, and `checkKey` looks into
the row. -/
def keyOf : Raw → Except YamlFault Raw
  | .mapping _ => malformed
  | .list items => .ok (.row items)
  | r => .ok r

def checkKey : Raw → Except YamlFault Unit
  | .row items =>
    match unfitPart? items with
    | some r => .error (.unfitKey r.kindName)
    | none => .ok ()
  | _ => .ok ()

/-- Whether two keys of a file are the same; here what is not a number is the same key as well. -/
def sameFileKey (a b : Raw) : Bool :=
  a.sameKey b ||
    match a, b with
    | .double .nan, .double .nan => true
    | _, _ => false

/-- What an entry of a mapping comes to, before its key is compared with others: a flaw of its
value is in the way of that only if the value is a scalar. -/
structure EntryReckoning where
  key : Reckoning Raw
  value : Reckoning Raw

/-- Whether an entry's value is in order as far as this collection goes. -/
def EntryReckoning.ownFault? (e : EntryReckoning) (earlier : List Raw) (unique : Bool) :
    Option YamlFault :=
  match e.key with
  | .error f => some f.fault
  | .ok k =>
    match keyOf k, e.value with
    | .error f, _ => some f
    | .ok _, .error ⟨0, f⟩ => some f
    | .ok k, _ =>
      match checkKey k with
      | .error f => some f
      | .ok () =>
        if unique && earlier.any (fun k' => sameFileKey k' k) then some .malformed else none

/-- The first thing that is wrong with the entries of a mapping as far as this collection goes. -/
def ownFaults (unique : Bool) (earlier : List Raw) : List EntryReckoning → Option YamlFault
  | [] => none
  | e :: es =>
    match e.ownFault? earlier unique with
    | some f => some f
    | none =>
      match e.key with
      | .ok k => ownFaults unique ((keyOf k).toOption.toList ++ earlier) es
      | .error _ => none

/-- The mapping of entries. Its own faults come first, as far as they can be told without the
values; only then are flaws inside the keys and the values looked for. -/
def mappingOf (unique : Bool) (es : List EntryReckoning) : Reckoning Raw :=
  match ownFaults unique [] es with
  | some f => .refuse f
  | none => do
    let keys ← collect (es.map (·.key))
    let values ← collect (es.map (·.value))
    -- No key is dropped by this, as each one has passed `ownFaults`.
    let keys := keys.map fun k => (keyOf k).toOption.getD k
    .ok (.ofEntries (keys.zip values))

/-- Data inside a collection. Flaws of a collection are deeper than those of a scalar there, but not
in a key, which is put together at once. -/
def Node.place (inKey : Bool) (n : Node) (r : Reckoning Raw) : Reckoning Raw :=
  match n with
  | .scalar _ _ => r
  | _ => if inKey then r.here else r.deeper

mutual

/-- The data of a node; `inKey` tells that it is a part of a key. -/
def Node.data (inKey : Bool) : Node → Reckoning Raw
  | .scalar k text =>
    match k.data text with
    | .ok r => .ok r
    | .error f => .refuse f
  | .list items => (collect (Node.itemData inKey items)).map Raw.list
  | .mapping merged entries => mappingOf (!merged) (Node.entryData inKey entries)
  | .unmergeable => .refuse .malformed

def Node.itemData (inKey : Bool) : List Node → List (Reckoning Raw)
  | [] => []
  | n :: ns => n.place inKey (n.data inKey) :: Node.itemData inKey ns

def Node.entryData (inKey : Bool) : List (Node × Node) → List EntryReckoning
  | [] => []
  | (k, v) :: es =>
    ⟨(k.data true).here, v.place inKey (v.data inKey)⟩ :: Node.entryData inKey es

end

end Yaml

open Yaml in
/-- The data of a profile file whose lines end in line feeds. Nothing but characters that a file may
hold, then its tokens, then its nodes, then the data of these.

It is one reader of such files and not the measure of all: it refuses tags of kinds that have no
data here, such as ordered mappings, and settings that declare tags of their own, which others read.
What is said of profiles is therefore said of any `Profile.Reader`, and this one only stands where
none is given. -/
def readYaml (content : String) : Except YamlFault Raw :=
  let cs := content.toList
  if cs.all isAllowed then do
    let (ts, fault) := tokens cs
    match ← Node.ofTokens ts fault with
    | none => .ok .null
    | some n => (n.data false).mapError (·.fault)
  else .error .malformed

end Stencil
