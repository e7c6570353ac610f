import SkillLint.Yaml.Token

/-!
# YAML nodes

The tokens of a document form a tree: a `Node` is a scalar, a sequence, a mapping or an
alias.  Anchors are numbered while the tokens are read, and an alias holds the number
that its anchor had at that point.  The number of a new anchor is the number of
different anchor names before it, so an anchor whose name is used again may share its
number with a later anchor; which node such a number means is settled by
`Node.anchored?`: the last one that starts.

`document?` reads the tree of the one document that a token list may hold.
-/

namespace SkillLint.Yaml

/-- The number and the tag of a node, where it has them. -/
structure Properties where
  anchor : Option Nat
  tag : Option (List UInt8)
  deriving Repr, DecidableEq, Inhabited

/-- A node of a document. -/
inductive Node where
  | scalar (props : Properties) (plain : Bool) (text : List Char)
  | sequence (props : Properties) (items : List Node)
  | mapping (props : Properties) (pairs : List (Node × Node))
  | aliasOf (anchor : Nat)
  deriving Inhabited

namespace Node

/-- No anchor and no tag. -/
def noProperties : Properties := ⟨none, none⟩

/-- A node of which nothing is written. -/
def empty : Node := .scalar noProperties true []

mutual

/-- The number of events that announce the node one after another: one for a scalar or
an alias, and a start and an end around the parts of a collection. -/
def eventCount : Node → Nat
  | scalar .. | aliasOf _ => 1
  | sequence _ items => itemsEventCount items + 2
  | mapping _ pairs => pairsEventCount pairs + 2

/-- The events of the items of a sequence. -/
def itemsEventCount : List Node → Nat
  | [] => 0
  | n :: rest => n.eventCount + itemsEventCount rest

/-- The events of the pairs of a mapping. -/
def pairsEventCount : List (Node × Node) → Nat
  | [] => 0
  | (k, v) :: rest => k.eventCount + v.eventCount + pairsEventCount rest

end

mutual

/-- The nodes with an anchor, in the order in which they start. -/
def anchors : Node → List (Nat × Node)
  | aliasOf _ => []
  | scalar props plain text =>
    (props.anchor.map fun id => (id, scalar props plain text)).toList
  | sequence props items =>
    (props.anchor.map fun id => (id, sequence props items)).toList ++ itemsAnchors items
  | mapping props pairs =>
    (props.anchor.map fun id => (id, mapping props pairs)).toList ++ pairsAnchors pairs

/-- The anchors of the items of a sequence. -/
def itemsAnchors : List Node → List (Nat × Node)
  | [] => []
  | n :: rest => n.anchors ++ itemsAnchors rest

/-- The anchors of the pairs of a mapping. -/
def pairsAnchors : List (Node × Node) → List (Nat × Node)
  | [] => []
  | (k, v) :: rest => k.anchors ++ v.anchors ++ pairsAnchors rest

end

/-- The node that a number means in a list of anchors: the last one. -/
def anchored? (table : List (Nat × Node)) (id : Nat) : Option Node :=
  table.reverse.lookup id

/-! ## From tokens to nodes -/

/-- What the handles of tags stand for. -/
abbrev Handles := List (List Char × List UInt8)

/-- The tokens ahead, and the numbers of the anchor names so far. -/
structure Source where
  tokens : List Token
  names : List (List Char × Nat)

namespace Source

/-- Takes the tokens up to `rest` off. -/
def take (s : Source) (rest : List Token) : Source := { s with tokens := rest }

/-- Gives a name the next number. -/
def register (s : Source) (name : List Char) : Nat × Source :=
  let id := s.names.length
  (id, { s with names := (name, id) :: s.names.filter fun entry => entry.1 ≠ name })

end Source

/-- The bytes of a tag: its handle is replaced by what it stands for. -/
def tagBytes? (handles : Handles) (handle : List Char) (suffix : List UInt8) :
    Option (List UInt8) :=
  if handle.isEmpty then some suffix else (handles.lookup handle).map (· ++ suffix)

/-- Reads an anchor and a tag, in either order, each if it is there. -/
def properties? (handles : Handles) (s : Source) : Option (Properties × Source) :=
  match s.tokens with
  | .anchor name :: .tag handle suffix :: rest => do
    let (id, s) := s.register name
    some (⟨some id, some (← tagBytes? handles handle suffix)⟩, s.take rest)
  | .tag handle suffix :: .anchor name :: rest => do
    let (id, s) := s.register name
    some (⟨some id, some (← tagBytes? handles handle suffix)⟩, s.take rest)
  | .anchor name :: rest =>
    let (id, s) := s.register name
    some (⟨some id, none⟩, s.take rest)
  | .tag handle suffix :: rest => do
    some (⟨none, some (← tagBytes? handles handle suffix)⟩, s.take rest)
  | _ => some (noProperties, s)

/-- The token closes something or starts the next part, so that nothing is written
where it stands. -/
def closes (ends : List Token) (s : Source) : Bool :=
  match s.tokens with
  | [] => false
  | t :: _ => ends.contains t

mutual

/-- Reads a node.  Blocks may start only in a block, and items directly below a key may
stand at the key's own column.  The first number bounds the depth of calls. -/
def read? (handles : Handles) : Nat → Bool → Bool → Source → Option (Node × Source)
  | 0, _, _, _ => none
  | fuel + 1, block, besideKey, s =>
    match s.tokens with
    | .aliasOf name :: rest => (s.names.lookup name).map fun id => (.aliasOf id, s.take rest)
    | _ => do
      let (props, s) ← properties? handles s
      match s.tokens, block with
      | .scalar plain text :: rest, _ => some (.scalar props plain text, s.take rest)
      | .flowSequenceStart :: rest, _ => do
        let (items, s) ← flowItems? handles fuel true (s.take rest)
        some (.sequence props items, s)
      | .flowMappingStart :: rest, _ => do
        let (pairs, s) ← flowPairs? handles fuel true (s.take rest)
        some (.mapping props pairs, s)
      | .blockSequenceStart :: rest, true => do
        let (items, s) ← blockItems? handles fuel (s.take rest)
        some (.sequence props items, s)
      | .blockMappingStart :: rest, true => do
        let (pairs, s) ← blockPairs? handles fuel (s.take rest)
        some (.mapping props pairs, s)
      | tokens, _ =>
        if besideKey && tokens.head? == some .blockEntry then do
          let (items, s) ← itemsBesideKey? handles fuel s
          some (.sequence props items, s)
        else if props = noProperties then none
        else some (.scalar props true [], s)

/-- Reads the items of a block sequence and its end. -/
def blockItems? (handles : Handles) : Nat → Source → Option (List Node × Source)
  | 0, _ => none
  | fuel + 1, s =>
    match s.tokens with
    | .blockEntry :: rest => do
      let s := s.take rest
      let (item, s) ←
        if closes [.blockEntry, .blockEnd] s then some (empty, s)
        else read? handles fuel true false s
      let (items, s) ← blockItems? handles fuel s
      some (item :: items, s)
    | .blockEnd :: rest => some ([], s.take rest)
    | _ => none

/-- Reads items that stand at the column of the key above them; any other token ends
them. -/
def itemsBesideKey? (handles : Handles) : Nat → Source → Option (List Node × Source)
  | 0, _ => none
  | fuel + 1, s =>
    match s.tokens with
    | .blockEntry :: rest => do
      let s := s.take rest
      let (item, s) ←
        if closes [.blockEntry, .key, .value, .blockEnd] s then some (empty, s)
        else read? handles fuel true false s
      let (items, s) ← itemsBesideKey? handles fuel s
      some (item :: items, s)
    | _ => some ([], s)

/-- Reads the pairs of a block mapping and its end.  A missing key or value is empty. -/
def blockPairs? (handles : Handles) : Nat → Source → Option (List (Node × Node) × Source)
  | 0, _ => none
  | fuel + 1, s =>
    match s.tokens with
    | .key :: rest => do
      let s := s.take rest
      let (key, s) ←
        if closes [.key, .value, .blockEnd] s then some (empty, s)
        else read? handles fuel true true s
      let (value, s) ← match s.tokens with
        | .value :: rest =>
          let s := s.take rest
          if closes [.key, .value, .blockEnd] s then some (empty, s)
          else read? handles fuel true true s
        | _ => some (empty, s)
      let (pairs, s) ← blockPairs? handles fuel s
      some ((key, value) :: pairs, s)
    | .blockEnd :: rest => some ([], s.take rest)
    | _ => none

/-- Reads the items of a flow sequence and its end, each but the `first` after a comma.
A key among them is a mapping of one pair; if nothing is written for the key, the token
after it is passed over. -/
def flowItems? (handles : Handles) : Nat → Bool → Source → Option (List Node × Source)
  | 0, _, _ => none
  | fuel + 1, first, s =>
    match s.tokens, first with
    | .flowSequenceEnd :: rest, _ => some ([], s.take rest)
    | .flowEntry :: .flowSequenceEnd :: rest, false => some ([], s.take rest)
    | tokens, _ => do
      let s ← match tokens, first with
        | .flowEntry :: rest, false => some (s.take rest)
        | _, true => some s
        | _, false => none
      let (item, s) ← match s.tokens with
        | .key :: rest => do
          let s := s.take rest
          let (key, s) ←
            if closes [.value, .flowEntry, .flowSequenceEnd] s then
              some (empty, s.take (s.tokens.drop 1))
            else read? handles fuel false false s
          let (value, s) ← match s.tokens with
            | .value :: rest =>
              let s := s.take rest
              if closes [.flowEntry, .flowSequenceEnd] s then some (empty, s)
              else read? handles fuel false false s
            | _ => some (empty, s)
          some (Node.mapping noProperties [(key, value)], s)
        | _ => read? handles fuel false false s
      let (items, s) ← flowItems? handles fuel false s
      some (item :: items, s)

/-- Reads the pairs of a flow mapping and its end, each but the `first` after a comma.
A node that is not announced as a key is a key without a value. -/
def flowPairs? (handles : Handles) :
    Nat → Bool → Source → Option (List (Node × Node) × Source)
  | 0, _, _ => none
  | fuel + 1, first, s =>
    match s.tokens, first with
    | .flowMappingEnd :: rest, _ => some ([], s.take rest)
    | .flowEntry :: .flowMappingEnd :: rest, false => some ([], s.take rest)
    | tokens, _ => do
      let s ← match tokens, first with
        | .flowEntry :: rest, false => some (s.take rest)
        | _, true => some s
        | _, false => none
      let (pair, s) ← match s.tokens with
        | .key :: rest => do
          let s := s.take rest
          let (key, s) ←
            if closes [.value, .flowEntry, .flowMappingEnd] s then some (empty, s)
            else read? handles fuel false false s
          let (value, s) ← match s.tokens with
            | .value :: rest =>
              let s := s.take rest
              if closes [.flowEntry, .flowMappingEnd] s then some (empty, s)
              else read? handles fuel false false s
            | _ => some (empty, s)
          some ((key, value), s)
        | _ => do
          let (key, s) ← read? handles fuel false false s
          some ((key, empty), s)
      let (pairs, s) ← flowPairs? handles fuel false s
      some (pair :: pairs, s)

end

/-! ## Documents -/

/-- The handles that need no directive. -/
def defaultHandles : Handles :=
  [(['!'], [33]), (['!', '!'], "tag:yaml.org,2002:".toList.map (·.toNat.toUInt8))]

/-- Reads the directives of a document: at most one version, which is 1.1 or 1.2, and
every handle at most once.  The answer holds the handles of the directives. -/
def directives? (versioned : Bool) (handles : Handles) :
    List Token → Option (Handles × List Token)
  | .version major minor :: rest =>
    if versioned || major ≠ 1 || !(minor == 1 || minor == 2) then none
    else directives? true handles rest
  | .tagHandle handle bytes :: rest =>
    if (handles.lookup handle).isSome then none
    else directives? versioned ((handle, bytes) :: handles) rest
  | rest => some (handles, rest)

/-- The tokens hold no directive. -/
def startsWithDirective : List Token → Bool
  | .version .. :: _ | .tagHandle .. :: _ => true
  | _ => false

/-- Reads the only document of a stream, `none` inside if the stream is empty.  After it
only marks of its end may follow.  A document may start without directives and mark;
behind a mark it may be empty. -/
def document? (tokens : List Token) : Option (Option Node) := do
  if tokens.isEmpty then some none
  else
    let explicit := startsWithDirective tokens || tokens.head? == some .documentStart
    let (handles, tokens) ←
      if explicit then do
        let (handles, tokens) ← directives? false [] tokens
        match tokens with
        | .documentStart :: rest => some (handles ++ defaultHandles, rest)
        | _ => none
      else some (defaultHandles, tokens)
    let source : Source := ⟨tokens, []⟩
    let (node, source) ←
      if explicit && (tokens.isEmpty || startsWithDirective tokens ||
          closes [.documentStart, .documentEnd] source) then
        some (empty, source)
      else read? handles (2 * tokens.length + 2) true false source
    if source.tokens.all (· == .documentEnd) then some (some node) else none

end Node

end SkillLint.Yaml
