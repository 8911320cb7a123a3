import TenantSql.Yaml.Lexer
import TenantSql.Yaml.Merge

/-!
# The document of a YAML text

Tokens make a tree of nodes. An alias stands for the node with its anchor, which
must come before it and may be around it; no two nodes share an anchor. A text
holds one document at most.
-/

namespace TenantSql.Yaml

abbrev Anchors := List (String × Option Node)

abbrev Handles := List (String × String)

def usualHandles : Handles :=
  [("!", "!"), ("!!", Tag.domain)]

structure Position where
  tokens : List Token
  anchors : Anchors

namespace Position

def peek (p : Position) : Option Token :=
  p.tokens.head?

def sees (p : Position) (among : List Token) : Bool :=
  p.peek.any among.contains

def mark (p : Position) : Nat :=
  p.tokens.length

def next (p : Position) : Position :=
  { p with tokens := p.tokens.tail }

def anchored (p : Position) (anchor : Option String) (node : Option Node) : Position :=
  match anchor with
  | none => p
  | some name => { p with anchors := (name, node) :: p.anchors }

end Position

structure Properties where
  anchor : Option String := none
  tag : Option String := none

namespace Properties

def tagName (handles : Handles) (t : WrittenTag) : Except Problem String :=
  match t.handle with
  | none => .ok t.suffix
  | some handle =>
      match handles.lookup handle with
      | some expansion => .ok (expansion ++ t.suffix)
      | none => malformed

def read (handles : Handles) (p : Position) : Except Problem (Properties × Position) :=
  match p.tokens with
  | .anchor name :: .tag t :: rest | .tag t :: .anchor name :: rest => do
      return ({ anchor := name, tag := ← tagName handles t }, { p with tokens := rest })
  | .anchor name :: rest => .ok ({ anchor := name }, { p with tokens := rest })
  | .tag t :: rest => do return ({ tag := ← tagName handles t }, { p with tokens := rest })
  | _ => .ok ({}, p)

def isEmpty (ps : Properties) : Bool :=
  ps.anchor.isNone && ps.tag.isNone

def collectionTag (ps : Properties) (usual : Tag) : Tag :=
  match ps.tag with
  | none | some "!" => usual
  | some name => .ofName name

/-- The tag of a scalar; without a tag of its own, a plain one has that of its form. -/
def scalarTag (ps : Properties) (plain : Bool) (text : String) : Tag :=
  match ps.tag with
  | none => if plain then .ofPlain text else .text
  | some "!" => .ofPlain text
  | some name => .ofName name

end Properties

inductive Context where
  | flow
  | block
  | entry
  deriving DecidableEq

def endsIndentless : List Token :=
  [.blockEntry, .key, .value, .blockEnd]

def endsBlockEntry : List Token :=
  [.key, .value, .blockEnd]

def endsFlowEntry : List Token :=
  [.value, .flowEntry, .flowMappingEnd]

def endsFlowPair : List Token :=
  [.value, .flowEntry, .flowSequenceEnd]

mutual

def readNode (handles : Handles) (context : Context) :
    Nat → Position → Except Problem (Node × Position)
  | 0, _ => malformed
  | fuel + 1, p =>
    match p.peek with
    | some (.alias name) =>
        match p.anchors.lookup name with
        | some (some node) => .ok (node, p.next)
        | some none => .ok (.again name, p.next)
        | none => malformed
    | _ => do
      let (properties, start) ← Properties.read handles p
      demand (properties.anchor.all fun name => (p.anchors.lookup name).isNone)
      let node := fun node : Node => (node, start.next.anchored properties.anchor node)
      let inside := start.next.anchored properties.anchor none
      let sequence := fun (items, after) =>
        let node := Node.sequence start.mark (properties.collectionTag .sequence) items
        (node, Position.anchored after properties.anchor node)
      let mapping := fun (entries, after) =>
        let node := Node.mapping start.mark (properties.collectionTag .mapping) entries
        (node, Position.anchored after properties.anchor node)
      match start.peek with
      | some (.scalar plain text) =>
          return node (.scalar start.mark (properties.scalarTag plain text) text)
      | some .flowSequenceStart =>
          sequence <$> readFlowItems handles fuel true inside
      | some .flowMappingStart =>
          mapping <$> readFlowEntries handles fuel true inside
      | some .blockEntry =>
          if context = .entry then
            sequence <$> readItems handles true fuel (start.anchored properties.anchor none)
          else readAbsent properties start
      | some .blockSequenceStart =>
          if context = .flow then readAbsent properties start
          else sequence <$> readItems handles false fuel inside
      | some .blockMappingStart =>
          if context = .flow then readAbsent properties start
          else mapping <$> readEntries handles fuel inside
      | _ => readAbsent properties start

def readItems (handles : Handles) (indentless : Bool) :
    Nat → Position → Except Problem (List Node × Position)
  | 0, _ => malformed
  | fuel + 1, p =>
    match p.peek with
    | some .blockEntry => do
        let ends := if indentless then endsIndentless else [.blockEntry, .blockEnd]
        let (item, after) ← readUnless handles .block ends fuel p.next
        let (items, after) ← readItems handles indentless fuel after
        return (item :: items, after)
    | other =>
        if indentless then .ok ([], p)
        else if other = some .blockEnd then .ok ([], p.next)
        else malformed

def readEntries (handles : Handles) :
    Nat → Position → Except Problem (List (Node × Node) × Position)
  | 0, _ => malformed
  | fuel + 1, p =>
    match p.peek with
    | some .blockEnd => .ok ([], p.next)
    | some .key => do
        let (key, after) ← readUnless handles .entry endsBlockEntry fuel p.next
        let (value, after) ← readValue handles .entry endsBlockEntry fuel after
        let (entries, after) ← readEntries handles fuel after
        return ((key, value) :: entries, after)
    | _ => malformed

/-- The items of a sequence in brackets from the next one on, and the position after its end. A
comma parts each item from the one before; a key makes a mapping of its own. -/
def readFlowItems (handles : Handles) :
    Nat → Bool → Position → Except Problem (List Node × Position)
  | 0, _, _ => malformed
  | fuel + 1, first, p =>
    if p.sees [.flowSequenceEnd] then .ok ([], p.next)
    else do
      demand (first || p.sees [.flowEntry])
      let p := if first then p else p.next
      match p.peek with
      | some .flowSequenceEnd => return ([], p.next)
      | some .key =>
          let (key, after) ← readUnless handles .flow endsFlowPair fuel p.next
          let (value, after) ← readValue handles .flow [.flowEntry, .flowSequenceEnd] fuel after
          let (items, after) ← readFlowItems handles fuel false after
          return (.mapping p.mark .mapping [(key, value)] :: items, after)
      | _ =>
          let (item, after) ← readNode handles .flow fuel p
          let (items, after) ← readFlowItems handles fuel false after
          return (item :: items, after)

/-- The entries of a mapping in brackets from the next one on, and the position after its end. A
node without the sign of a key is a key without a value. -/
def readFlowEntries (handles : Handles) :
    Nat → Bool → Position → Except Problem (List (Node × Node) × Position)
  | 0, _, _ => malformed
  | fuel + 1, first, p =>
    if p.sees [.flowMappingEnd] then .ok ([], p.next)
    else do
      demand (first || p.sees [.flowEntry])
      let p := if first then p else p.next
      match p.peek with
      | some .flowMappingEnd => return ([], p.next)
      | some .key =>
          let (key, after) ← readUnless handles .flow endsFlowEntry fuel p.next
          let (value, after) ← readValue handles .flow [.flowEntry, .flowMappingEnd] fuel after
          let (entries, after) ← readFlowEntries handles fuel false after
          return ((key, value) :: entries, after)
      | _ =>
          let (key, after) ← readNode handles .flow fuel p
          let (entries, after) ← readFlowEntries handles fuel false after
          return ((key, .empty) :: entries, after)

def readUnless (handles : Handles) (context : Context) (ends : List Token) :
    Nat → Position → Except Problem (Node × Position)
  | 0, _ => malformed
  | fuel + 1, p => if p.sees ends then .ok (.empty, p) else readNode handles context fuel p

def readValue (handles : Handles) (context : Context) (ends : List Token) :
    Nat → Position → Except Problem (Node × Position)
  | 0, _ => malformed
  | fuel + 1, p =>
    if p.sees [.value] then readUnless handles context ends fuel p.next else .ok (.empty, p)

def readAbsent (properties : Properties) (p : Position) : Except Problem (Node × Position) :=
  if properties.isEmpty then malformed
  else
    let node := Node.scalar p.mark (properties.scalarTag true "") ""
    .ok (node, p.anchored properties.anchor node)

end

/-- The handles that directives name, and the tokens after them. A directive must not repeat one
before it, and only the first version of the format is known. -/
def readDirectives (versioned : Bool) (handles : Handles) :
    List Token → Except Problem (Handles × List Token)
  | .directive (.version major) :: rest => do
      demand (!versioned && major == 1)
      readDirectives true handles rest
  | .directive (.handle name expansion) :: rest => do
      demand (handles.lookup name).isNone
      readDirectives versioned ((name, expansion) :: handles) rest
  | .directive .other :: rest => readDirectives versioned handles rest
  | rest => .ok (handles, rest)

def announces : Token → Bool
  | .directive _ | .documentStart => true
  | _ => false

def endsAnnounced (t : Token) : Bool :=
  announces t || t = .documentEnd

def announcedContent (tokens : List Token) : Except Problem (Node × Position) := do
  let (handles, rest) ← readDirectives false [] tokens
  match rest with
  | .documentStart :: content =>
      if content.head?.all endsAnnounced then return (.empty, ⟨content, []⟩)
      else readNode (handles ++ usualHandles) .block (4 * content.length + 4) ⟨content, []⟩
  | _ => malformed

def Position.anchored? (p : Position) : Anchored :=
  p.anchors.filterMap fun (name, node) => node.map fun node => (name, node)

def maxDepth : Nat := 489

def isTooDeep : Nat → List Token → Bool
  | _, [] => false
  | depth, token :: rest =>
      match token with
      | .blockSequenceStart | .blockMappingStart | .flowSequenceStart | .flowMappingStart =>
          maxDepth ≤ depth || isTooDeep (depth + 1) rest
      | .blockEnd | .flowSequenceEnd | .flowMappingEnd => isTooDeep (depth - 1) rest
      | _ => isTooDeep depth rest

def document (tokens : List Token) : Except Problem (Option (Node × Anchored)) := do
  match tokens with
  | [] => return none
  | first :: _ =>
      if isTooDeep 0 tokens then throw (.fault .tooDeep)
      let (node, after) ←
        if announces first then announcedContent tokens
        else readNode usualHandles .block (4 * tokens.length + 4) ⟨tokens, []⟩
      demand (after.tokens.all (· = .documentEnd))
      return some (node, after.anchored?)

end TenantSql.Yaml
