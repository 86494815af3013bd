import EntityGraph.Schema.Converter

/-!
Notions: how a related node is shown and found again. A node is shown as a whole with its identity,
as one property, or as some of its properties, and a notion bound to a type finds only nodes of that
type.

Main statement: `eq_convertLenient_of_convertAll` — a strict conversion of a list that succeeds
gives what the lenient one gives.
-/

namespace EntityGraph

/-- A paired way to show a node and to find it from what was shown. -/
structure Notion where
  encode : Caller → Option EntityType → Node → Except Failure Value
  decode : Caller → Option EntityType → Resolver → Value → Except Failure Node
  /-- The one property that finds a node, if one does. -/
  primaryKey : Option PropertyKey := none
  /-- The type of the nodes shown. -/
  target : Option EntityType := none

/-- The stored form of an identity. -/
def NodeId.toValue (id : NodeId) : Except Failure Value :=
  match Integer64.ofInt? id.raw with
  | some n => .ok (.int n)
  | none => .error (.conversion s!"{id} does not fit an integer value")

/-- Converts each item, skipping those that fail. -/
def convertLenient {α β : Type} (f : α → Except Failure β) (items : List α) : List β :=
  items.filterMap fun a => (f a).toOption

/-- Converts each item, failing with the first that fails. -/
def convertAll {α β : Type} (f : α → Except Failure β) : List α → Except Failure (List β)
  | [] => .ok []
  | a :: as => do
    let b ← f a
    return b :: (← convertAll f as)

namespace Notion

/-- The node, which must be of the target type. -/
def checkTarget (target : Option EntityType) (node : Node) : Except Failure Node :=
  match target with
  | some t =>
    if node.type.isSubtypeOf t then .ok node
    else .error (.invalidInput s!"{node} is not a {t}")
  | none => .ok node

/-- The only node of a list. -/
def single (what : String) : List Node → Except Failure Node
  | [] => .error (.notFound what)
  | [node] => .ok node
  | nodes => .error (.invalidInput s!"{what} is ambiguous: {nodes.length} nodes match")

/-- All properties, and the identity as one more. -/
def encodeWhole (node : Node) : Except Failure Value := do
  return .object (node.properties.put idProperty (← node.id.toValue))

/-- The identity in an integer. -/
def storedId? : Value → Option NodeId
  | .int n => NodeId.ofInt? n
  | _ => none

/-- The identity in an integer or in an object that has one. -/
def idOf? : Value → Option NodeId
  | .object fields => (Assoc.get? fields idProperty).bind storedId?
  | v => storedId? v

/-- The node of the identity. -/
def decodeById (target : Option EntityType) (r : Resolver) (v : Value) : Except Failure Node :=
  match idOf? v with
  | none => .error (.invalidInput s!"cannot decode a node id from {v.kind}")
  | some id => do checkTarget target (← r.require id)

/-- The only node that holds the value under the key. -/
def decodeByKey (key : PropertyKey) (target : Option EntityType) (r : Resolver) (v : Value) :
    Except Failure Node := do
  if v.isNull then .error (.invalidInput s!"cannot decode by {key} from null")
  else single s!"node with {key} = {v.outline}" (← r.find target [(key.name, v)])

/-- The values of some keys, null where a property is not set. -/
def encodeKeys (keys : List PropertyKey) (node : Node) : Value :=
  .object (Assoc.ofRows (keys.map fun k => (k.name, node.propertyOrNull k.name)))

/-- The entries of an object under some keys, without those that are null. -/
def queryOf (keys : List PropertyKey) (fields : Properties) : Properties :=
  Assoc.ofRows (keys.filterMap fun k =>
    match fields.get? k.name with
    | none | some .null => none
    | some v => some (k.name, v))

/-- The only node that matches every key that the object gives. -/
def decodeByKeys (keys : List PropertyKey) (target : Option EntityType) (r : Resolver) :
    Value → Except Failure Node
  | .object fields => do
    let query := queryOf keys fields
    if query.isEmpty then .error (.invalidInput "property set notion found none of its keys")
    else single "node matching property set" (← r.find target query)
  | v => .error (.invalidInput s!"property set notion expects an object, got {v.kind}")

/-- A node shown as a whole, found by its identity. -/
def object : Notion where
  encode _ _ := encodeWhole
  decode _ := decodeById

/-- A node shown as one property, found by it. -/
def property (key : PropertyKey) : Notion where
  encode _ _ node := .ok (node.propertyOrNull key.name)
  decode _ := decodeByKey key
  primaryKey := some key

/-- A node shown as some of its properties, found by those that are set. -/
def propertySet (keys : List PropertyKey) : Notion where
  encode _ _ node := .ok (encodeKeys keys node)
  decode _ := decodeByKeys keys

/-- The notion for nodes of a type. -/
def bind (n : Notion) (target : EntityType) : Notion := { n with target := some target }

/-- How `caller` is shown a node. -/
def get (n : Notion) (caller : Caller) (node : Node) : Except Failure Value :=
  n.encode caller n.target node

/-- The node that `caller` means. -/
def set (n : Notion) (caller : Caller) (r : Resolver) (v : Value) : Except Failure Node :=
  n.decode caller n.target r v

/-- How `caller` is shown each node of a list. -/
def getAll (n : Notion) (caller : Caller) (nodes : List Node) : Except Failure (List Value) :=
  convertAll (n.get caller) nodes

/-- The nodes that `caller` means; no list means no nodes. -/
def setAll (n : Notion) (caller : Caller) (r : Resolver) (vs : Option (List Value)) :
    Except Failure (List Node) :=
  convertAll (n.set caller r) (vs.getD [])

/-- From what a caller is shown to the stored identity of the node. -/
def toReference (n : Notion) (caller : Caller) (r : Resolver) (v : Value) : Except Failure Value :=
  if v.isNull then .ok .null else do (← n.set caller r v).id.toValue

/-- From the stored identity of a node to what a caller is shown. -/
def ofReference (n : Notion) (caller : Caller) (r : Resolver) (v : Value) : Except Failure Value :=
  if v.isNull then .ok .null
  else match storedId? v with
    | some id => do n.get caller (← r.require id)
    | none => .error (.conversion s!"stored reference is a {v.kind}, not a node id")

/-- Stores the identity of a related node. -/
def entityConverter (n : Notion) (caller : Caller) : Converter :=
  ⟨n.toReference caller, n.ofReference caller⟩

/-- Converts each item of an array; null becomes an empty array. -/
def eachReference (f : Value → Except Failure Value) : Value → Except Failure Value
  | .null => .ok (.array [])
  | .array vs => (convertAll f vs).map .array
  | v => .error (.conversion s!"expected an array of references, got {v.kind}")

/-- Stores the identities of related nodes in an array. -/
def collectionConverter (n : Notion) (caller : Caller) : Converter :=
  ⟨fun r => eachReference (n.toReference caller r), fun r => eachReference (n.ofReference caller r)⟩

/-- The notion as messages show it. -/
def outline (n : Notion) : String :=
  Outline.record "Notion"
    [("primary_key", Outline.option (n.primaryKey.map PropertyKey.outline)),
      ("target", Outline.option (n.target.map fun t => quoted t.name))]

end Notion

theorem eq_convertLenient_of_convertAll {α β : Type} {f : α → Except Failure β} {items : List α}
    {out : List β} (h : convertAll f items = .ok out) : out = convertLenient f items := by
  induction items generalizing out with
  | nil => simp_all [convertAll, convertLenient]
  | cons a as ih =>
    obtain ⟨b, hf, h⟩ := bind_eq_ok_iff.1 h
    obtain ⟨bs, hrest, h⟩ := bind_eq_ok_iff.1 h
    obtain rfl := Except.ok.inj h
    simp [convertLenient, hf, Except.toOption, ih hrest]

end EntityGraph
