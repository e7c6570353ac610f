import SkillLint.Header.Value
import SkillLint.Yaml.Layout
import SkillLint.Yaml.Node
import SkillLint.Yaml.Scalar

/-!
# The data of a YAML text

`Yaml.read?` is the whole way from a text to header data: the tokens of the text, the
node of its only document, the data of that node with every alias replaced by what its
anchor marks, and the value of that data.

Three things make well-formed nodes fail as data: collections nested more than
`depthLimit` deep, more than `aliasFactor` aliases followed for every event of the
document, and a key that a mapping holds twice.  Keys are compared as data (`Data.same`);
only afterwards do they become texts, and pairs whose keys become the same text then
replace one another.
-/

namespace SkillLint.Yaml

/-- The deepest nesting of collections. -/
def depthLimit : Nat := 128

/-- The number of aliases that may be followed for every event of a document. -/
def aliasFactor : Nat := 100

namespace Data

mutual

/-- Equality of keys.  Mappings are equal in any order of their pairs, zeros of both
signs are equal, and so are two that are no number. -/
def same : Data → Data → Bool
  | null, null => true
  | bool a, bool b => a == b
  | int a, int b => a == b
  | float a, float b => a.numEq b || (a == .nan && b == .nan)
  | string a, string b => a == b
  | sequence a, sequence b => sameItems a b
  | mapping a, mapping b => a.length == b.length && samePairs a b
  | tagged t a, tagged u b => t == u && a.same b
  | _, _ => false

/-- The items are equal one by one. -/
def sameItems : List Data → List Data → Bool
  | [], [] => true
  | a :: as, b :: bs => a.same b && sameItems as bs
  | _, _ => false

/-- Every pair of the first list is equal to one of the second. -/
def samePairs : List (Data × Data) → List (Data × Data) → Bool
  | [], _ => true
  | (k, v) :: rest, pairs =>
    pairs.any (fun pair => k.same pair.1 && v.same pair.2) && samePairs rest pairs

end

/-- No key is equal to a later one. -/
def keysDistinct : List (Data × Data) → Bool
  | [] => true
  | (k, _) :: rest => !rest.any (fun pair => k.same pair.1) && keysDistinct rest

/-- The tag without an exclamation mark before it.  A lone mark stays. -/
def unmarked : List UInt8 → List UInt8
  | 33 :: byte :: rest => byte :: rest
  | tag => tag

/-- The name that a tag of the application goes by.  Such a tag starts with an exclamation
mark and is a text, and a second mark makes no difference. -/
def applicationTag? (tag : List UInt8) : Option (List UInt8) :=
  if tag.head? == some 33 && (String.fromUTF8? ⟨(unmarked tag).toArray⟩).isSome then
    some (unmarked (unmarked tag))
  else none

/-- The data with the tag of its node, if the tag is one of the application's. -/
def withTag (props : Properties) (d : Data) : Data :=
  match props.tag.bind applicationTag? with
  | some name => .tagged name d
  | none => d

/-- The data of a scalar. -/
def ofScalar? (props : Properties) (plain : Bool) (text : List Char) : Option Data :=
  let data := match props.tag with
    | some tag => ofTagged? tag plain text
    | none => if plain then ofPlain? text else some (.string text)
  data.map (withTag props)

/-- Follows an alias to its node and counts it.  `table` holds the anchors, and `limit`
is the number of aliases that may be followed. -/
def follow (table : List (Nat × Node)) (limit : Nat) : Node → StateT Nat Option Node
  | .aliasOf id => fun count =>
    if count < limit then (Node.anchored? table id).map (·, count + 1) else none
  | node => pure node

/-- The data of a node, with `depth` more levels of collections allowed.  The state is
the number of aliases followed so far. -/
def ofNode? (table : List (Nat × Node)) (limit : Nat) : Nat → Node → StateT Nat Option Data
  | 0, node => do
    match ← follow table limit node with
    | .scalar props plain text => fun count => (ofScalar? props plain text).map (·, count)
    | _ => fun _ => none
  | depth + 1, node => do
    match ← follow table limit node with
    | .scalar props plain text => fun count => (ofScalar? props plain text).map (·, count)
    | .sequence props items => do
      return withTag props (.sequence (← items.mapM (ofNode? table limit depth)))
    | .mapping props pairs => do
      let pairs ← pairs.mapM fun (key, value) => do
        return (← ofNode? table limit depth key, ← ofNode? table limit depth value)
      if keysDistinct pairs then return withTag props (.mapping pairs) else fun _ => none
    | .aliasOf _ => fun _ => none

/-- The data of a document. -/
def ofDocument? (node : Node) : Option Data :=
  ((ofNode? node.anchors (node.eventCount * aliasFactor) depthLimit node).run 0).map Prod.fst

/-- The text of a value as a key. -/
def keyText : Value → String
  | .string s => s
  | other => other.display

mutual

/-- The value of data: tags are dropped, keys become texts, and an integer above the
signed range becomes a floating point number. -/
def toValue : Data → Value
  | null => .null
  | bool b => .bool b
  | int n => if n < 2 ^ 63 then .int n else .float (.ofDecimal false n.toNat 0)
  | float x => .float x
  | string s => .string (String.ofList s)
  | sequence items => .list (itemsToValues items)
  | mapping pairs => .map (Mapping.ofList (pairsToValues pairs)).entries
  | tagged _ d => d.toValue

/-- The values of the items. -/
def itemsToValues : List Data → List Value
  | [] => []
  | d :: rest => d.toValue :: itemsToValues rest

/-- The keys and values of the pairs. -/
def pairsToValues : List (Data × Data) → List (String × Value)
  | [] => []
  | (k, v) :: rest => (keyText k.toValue, v.toValue) :: pairsToValues rest

end

end Data

/-- The value that a text holds, `none` if it is malformed.  An empty text holds
null. -/
def read? (text : String) : Option Value := do
  match ← Node.document? (← tokens? text.toList) with
  | none => some .null
  | some node => (Data.ofDocument? node).map Data.toValue

end SkillLint.Yaml
