import TenantSql.Value.Sequence
import TenantSql.Yaml.Grammar
import TenantSql.Yaml.Merge

/-!
# Reading YAML

The value of a document. Of two equal keys of a mapping the later value counts, in
the place of the first. Keys are scalars; bytes are written in base 64. A tag that
is not known has no value. Scalars are looked at when the collection around them
is, and collections level by level, so that of several problems the one on the
outermost level shows.
-/

namespace TenantSql.Text

/-! ## Bytes in base 64

Every character of the alphabet stands for six bits, so that four of them make
three bytes. Characters outside of the alphabet are skipped; a last group that is
not complete must be filled up by padding. -/

def sixBits? (c : Char) : Option Nat :=
  if c.isUpper then some (c.toNat - 'A'.toNat)
  else if c.isLower then some (c.toNat - 'a'.toNat + 26)
  else if c.isDigit then some (c.toNat - '0'.toNat + 52)
  else if c == '+' then some 62
  else if c == '/' then some 63
  else none

def sixBitNumbers? : Nat → Nat → List Char → Option (List Nat)
  | place, _, [] => if place == 0 then some [] else none
  | place, padding, c :: rest =>
      if c == '=' then
        if place < 2 then sixBitNumbers? place padding rest
        else if 4 ≤ place + padding + 1 then some []
        else sixBitNumbers? place (padding + 1) rest
      else
        match sixBits? c with
        | some n => (n :: ·) <$> sixBitNumbers? ((place + 1) % 4) 0 rest
        | none => sixBitNumbers? place padding rest

def bytesOfSixBits : List Nat → List UInt8
  | a :: b :: c :: d :: rest =>
      UInt8.ofNat (a * 4 + b / 16) :: UInt8.ofNat (b % 16 * 16 + c / 4) ::
        UInt8.ofNat (c % 4 * 64 + d) :: bytesOfSixBits rest
  | [a, b, c] => [UInt8.ofNat (a * 4 + b / 16), UInt8.ofNat (b % 16 * 16 + c / 4)]
  | [a, b] => [UInt8.ofNat (a * 4 + b / 16)]
  | _ => []

def base64? (cs : List Char) : Option (List UInt8) :=
  if cs.all (·.toNat < 128) then bytesOfSixBits <$> sixBitNumbers? 0 0 cs else none

end TenantSql.Text

/-! ## Documents -/

namespace TenantSql.Yaml

def truth? (word : String) : Option Bool :=
  if ["yes", "true", "on"].contains word then some true
  else if ["no", "false", "off"].contains word then some false
  else none

/-- A number as a scalar. What has no value gets a mark, but the word for it always the same. -/
def realScalar (mark : Nat) (text : String) : Number.Binary64 → Scalar
  | .undefined =>
      let word := ((text.toList.filter (· != '_')).map Char.toLower)
      .undefined (if (splitSign word).2 == ".nan".toList then 0 else mark + 1)
  | x => .real x

def scalarValue (mark : Nat) (tag : Tag) (text : String) : Except Problem Scalar :=
  match tag with
  | .null => .ok .null
  | .bool =>
      match truth? (String.ofList (text.toList.map Char.toLower)) with
      | some b => .ok (.bool b)
      | none => .error (.fault .missingEntry)
  | .integer => .int <$> readInteger text.toList
  | .real => realScalar mark text <$> readReal text.toList
  | .stamp =>
      (fun stamp => match stamp with
        | .inl date => .date date
        | .inr moment => .moment moment) <$> readStamp text.toList
  | .text => .ok (.text text)
  | .binary =>
      match Text.base64? text.toList with
      | some content => .ok (.bytes content)
      | none => malformed
  | _ => malformed

def objectOf (entries : List (Scalar × Value)) : Value :=
  .object (entries.foldl (fun before entry => Entries.insert before entry.1 entry.2) [])

namespace Node

mutual

def scalarText? : Node → Option String
  | .scalar _ _ text => some text
  | .sequence .. | .again _ => none
  | .mapping _ _ entries => principalText? entries

def principalText? : List NodeEntry → Option String
  | [] => none
  | (key, value) :: rest =>
      if key.tag = .principal then scalarText? value else principalText? rest

end

def isCollection : Node → Bool
  | .again _ => true
  | node => node.tag.isCollection

def toScalar (node : Node) : Except Problem Scalar :=
  match node, node.scalarText? with
  | _, none => malformed
  | .mapping _ .stamp _, some _ => .error (.fault .wrongKind)
  | _, some text => scalarValue node.mark node.tag text

/-! ## Problems -/

def checkNow (node : Node) : Except Problem Unit :=
  if node.isCollection then .ok () else do let _ ← node.toScalar

/-- The nodes of entries are looked at, keys before values. No key is a collection. -/
def checkEntries : List NodeEntry → Except Problem Unit
  | [] => .ok ()
  | (key, value) :: rest => do
      checkNow key
      demand !key.isCollection
      checkNow value
      checkEntries rest

def checkPairs : List Node → Except Problem (List Node)
  | [] => .ok []
  | .mapping _ _ [(key, value)] :: rest => do
      checkNow key
      checkNow value
      return key :: value :: (← checkPairs rest)
  | _ => malformed

def checkParts (node : Node) : Except Problem (List Node) := do
  let parts ← match node with
    | .sequence _ .sequence items => do
        items.forM checkNow
        pure items
    | .sequence _ .orderedMapping items | .sequence _ .pairs items => checkPairs items
    | .mapping _ .mapping entries | .mapping _ .set entries => do
        checkEntries entries
        pure (entries.map (·.2))
    | _ => malformed
  return parts.filter fun part => match part with
    | .again _ => false
    | part => part.isCollection

def checkLevels : Nat → List Node → Except Problem Unit
  | _, [] => .ok ()
  | 0, _ => .ok ()
  | fuel + 1, level => do
      checkLevels fuel (← level.mapM checkParts).flatten

mutual

def height : Node → Nat
  | .scalar .. | .again _ => 1
  | .sequence _ _ items => heights items + 1
  | .mapping _ _ entries => entryHeights entries + 1

def heights : List Node → Nat
  | [] => 0
  | node :: rest => max (height node) (heights rest)

def entryHeights : List NodeEntry → Nat
  | [] => 0
  | (key, value) :: rest => max (max (height key) (height value)) (entryHeights rest)

end

def check (node : Node) : Except Problem Unit := do
  checkNow node
  if node.isCollection then checkLevels node.height [node]

/-! ## Values -/

structure Knots where
  present : Bool
  again : String → Value

def Knots.tie (knots : Knots) (mark : Nat) (collection : Value) : Value :=
  if knots.present then .knot mark collection else collection

mutual

def toValue (knots : Knots) : Node → Except Problem Value
  | .scalar mark tag text => .scalar <$> scalarValue mark tag text
  | .again anchor => .ok (knots.again anchor)
  | .sequence mark tag items =>
      match tag with
      | .sequence => do return knots.tie mark (.list (← toValues knots items))
      | .orderedMapping | .pairs => do return knots.tie mark (.list (← toPairs knots items))
      | _ => malformed
  | .mapping mark tag entries =>
      match tag with
      | .mapping => do return knots.tie mark (objectOf (← toEntries knots entries))
      | .set => do
          return .set (Scalar.distinct ((← toEntries knots entries).map (·.1)))
      | _ => .scalar <$> toScalar (.mapping mark tag entries)

def toValues (knots : Knots) : List Node → Except Problem (List Value)
  | [] => .ok []
  | item :: rest => do
      let value ← toValue knots item
      return value :: (← toValues knots rest)

def toPairs (knots : Knots) : List Node → Except Problem (List Value)
  | [] => .ok []
  | .mapping _ _ [(key, value)] :: rest => do
      let pair := Value.pair (← toValue knots key) (← toValue knots value)
      return pair :: (← toPairs knots rest)
  | _ => malformed

def toEntries (knots : Knots) : List NodeEntry → Except Problem (List (Scalar × Value))
  | [] => .ok []
  | (key, value) :: rest => do
      let entry := (← toScalar key, ← toValue knots value)
      return entry :: (← toEntries knots rest)

end

/-- The value of a collection with an anchor where it comes again, unrolled so many times. -/
def unrolled (anchored : Anchored) : Nat → String → Value
  | 0, anchor =>
      match anchored.lookup anchor with
      | some (.mapping mark ..) => .knot mark (.object [])
      | some node => .knot node.mark (.list [])
      | none => .null
  | fuel + 1, anchor =>
      match (anchored.lookup anchor).map (toValue ⟨true, unrolled anchored fuel⟩) with
      | some (.ok value) => value
      | _ => .null

end Node

/-- How often a collection is unrolled that is among its own parts. Nothing looks deeper. -/
def unrollings : Nat := 4

def read (s : String) : Except Problem Value := do
  match ← document (← tokens s) with
  | none => return .null
  | some (root, anchored) =>
      let node := root.merged anchored.around
      node.check
      let merged := anchored.map fun entry => (entry.1, entry.2.merged anchored.around)
      node.toValue ⟨node.mentionsAgain, Node.unrolled merged unrollings⟩

end TenantSql.Yaml
