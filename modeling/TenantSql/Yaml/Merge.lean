import TenantSql.Yaml.Node

/-!
# Merged mappings

A mapping takes over the entries of the mappings under its merge keys, in front of
its own; of several mappings in a sequence the first one counts most and so comes
last. What stands under a merge key and is neither a mapping nor a sequence of
mappings is an error of the mapping that should take it over.
-/

namespace TenantSql.Yaml

abbrev Anchored := List (String × Node)

namespace Node

mutual

def mentionsAgain : Node → Bool
  | scalar .. => false
  | sequence _ _ items => anyMentions items
  | mapping _ _ entries => entriesMention entries
  | again _ => true

def anyMentions : List Node → Bool
  | [] => false
  | node :: rest => mentionsAgain node || anyMentions rest

def entriesMention : List NodeEntry → Bool
  | [] => false
  | (key, value) :: rest => mentionsAgain key || mentionsAgain value || entriesMention rest

end

end Node

abbrev Around := String → Option (List NodeEntry)

abbrev Merged := List NodeEntry × List NodeEntry

mutual

/-- The node with its mappings merged. A mapping that cannot be merged becomes a scalar, which has no
value as a mapping. -/
def Node.merged (around : Around) : Node → Node
  | .scalar mark tag text => .scalar mark tag text
  | .again anchor => .again anchor
  | .sequence mark tag items =>
      .sequence mark tag
        (if tag = .orderedMapping || tag = .pairs then mergedPairs around items
        else mergedItems around items)
  | .mapping mark tag entries =>
      if tag.isCollection then
        match mergedEntries around entries with
        | some (taken, own) => .mapping mark tag (taken ++ own)
        | none => .scalar mark tag ""
      else .mapping mark tag entries

def mergedItems (around : Around) : List Node → List Node
  | [] => []
  | item :: rest => item.merged around :: mergedItems around rest

def mergedPairs (around : Around) : List Node → List Node
  | [] => []
  | .mapping mark tag [(key, value)] :: rest =>
      .mapping mark tag [(key.merged around, value.merged around)] :: mergedPairs around rest
  | item :: rest => item.merged around :: mergedPairs around rest

def mergedEntries (around : Around) : List NodeEntry → Option Merged
  | [] => some ([], [])
  | (key, value) :: rest =>
      if key.tag = .merge then do
        let first ← takenOver around value
        let (taken, own) ← mergedEntries around rest
        return (first ++ taken, own)
      else do
        let (taken, own) ← mergedEntries around rest
        let key := if key.tag = .principal then key.withTag .text else key.merged around
        return (taken, (key, value.merged around) :: own)

def takenOver (around : Around) : Node → Option (List NodeEntry)
  | .scalar .. => none
  | .again anchor => around anchor
  | .mapping _ _ entries => do
      let (taken, own) ← mergedEntries around entries
      return taken ++ own
  | .sequence _ _ items => takenOverFrom around items

def takenOverFrom (around : Around) : List Node → Option (List NodeEntry)
  | [] => some []
  | .mapping _ _ entries :: rest => do
      let (taken, own) ← mergedEntries around entries
      return (← takenOverFrom around rest) ++ taken ++ own
  | .again anchor :: rest => do
      let first ← around anchor
      return (← takenOverFrom around rest) ++ first
  | _ => none

end

def Anchored.entries? (anchored : Anchored) (anchor : String) : Option (List NodeEntry) :=
  match anchored.lookup anchor with
  | some (.mapping _ _ entries) => some entries
  | _ => none

/-- The entries that a part of a mapping takes over from it. What the mapping takes over from one
around it is left out. -/
def Anchored.around (anchored : Anchored) : Around := fun anchor => do
  let entries ← anchored.entries? anchor
  let (taken, own) ← mergedEntries (fun outer => (anchored.entries? outer).map fun _ => []) entries
  return taken ++ own

end TenantSql.Yaml
