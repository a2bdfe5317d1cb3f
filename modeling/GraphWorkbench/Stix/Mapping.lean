import GraphWorkbench.Document.Mutation
import GraphWorkbench.Preset.Basic
import GraphWorkbench.Stix.Validation
/-!
Turning valid objects into mutations. Objects become nodes on a grid, relationships become edges,
and a sighting becomes an edge to every place where the thing was sighted. Fields that have no
place in the graph are kept with the element.
-/
namespace GraphWorkbench.Stix

/-- A distance on the grid; products of whole distances are exact. -/
inductive Spacing where
  | whole (n : Int)
  | real (x : Binary64)
deriving DecidableEq, Inhabited

def Spacing.times (s : Spacing) (n : Int) : Binary64 :=
  match s with
  | .whole m => .ofInt (n * m)
  | .real x => (Binary64.ofInt n).mul x

def defaultTypes : List (String × String) :=
  [("attack-pattern", "attack-pattern"), ("campaign", "campaign"),
    ("course-of-action", "mitigation"), ("grouping", "group"), ("identity", "asset"),
    ("indicator", "indicator"), ("infrastructure", "asset"), ("intrusion-set", "threat-actor"),
    ("location", "location"), ("malware", "malware"), ("threat-actor", "threat-actor"),
    ("tool", "tool"), ("vulnerability", "vulnerability")]

def defaultRelationships : List (String × String) :=
  [("uses", "uses"), ("targets", "targets"), ("mitigates", "mitigates"),
    ("indicates", "indicates"), ("attributed-to", "attributed-to"), ("located-at", "located-at"),
    ("exploits", "exploits"), ("variant-of", "variant-of"), ("derived-from", "derived-from"),
    ("related-to", "related-to"), ("delivers", "delivers"), ("originates-from", "located-at"),
    ("compromises", "targets"), ("authored-by", "attributed-to"), ("based-on", "derived-from"),
    ("communicates-with", "related-to"), ("duplicate-of", "related-to")]

/-- How a bundle is imported. An empty list of wanted types wants all. -/
structure Options where
  wanted : List String := []
  unwanted : List String := []
  relationships : Bool := true
  typeOf : List (String × String) := defaultTypes
  relationshipOf : List (String × String) := defaultRelationships
  sightingRelationship : String := "sighted-at"
  columns : Int := 8
  spacing : Spacing := .real 180

def Options.accepts (o : Options) (type : String) : Bool :=
  (o.wanted.isEmpty || o.wanted.contains type) && !o.unwanted.contains type

/-- The place of a slot of the grid, which is filled row by row. -/
def gridPosition (o : Options) (slot : Int) : Except Fault Position :=
  if o.columns = 0 then .error .divisionByZero
  else .ok ⟨o.spacing.times (slot.fmod o.columns), o.spacing.times (slot.fdiv o.columns)⟩

/-- The text after the first two hyphens in a row; the whole text when there are none. -/
def afterMark : List Char → List Char
  | [] => []
  | [c] => [c]
  | a :: b :: rest =>
    if a = '-' ∧ b = '-' then rest
    else if (beforeMark? (b :: rest)).isSome then afterMark (b :: rest)
    else a :: b :: rest

/-- A label for an object: its name or else its type with the start of what tells it apart. -/
def labelOf (record : List (String × Json)) : String :=
  let fallback :=
    let id := ((Entries.get? "id" record).getD (.str "")).text
    let start := (afterMark id.toList).take 8
    let suffix := if start.isEmpty then "unknown" else String.ofList start
    let type := ((Entries.get? "type" record).getD (.str "object")).text
    s!"{type} ({suffix})"
  match Entries.get? "name" record with
  | some (.str name) => if name.toList.all Text.isBlank then fallback else name
  | _ => fallback

/-- The fields of a record but for some. -/
def without (names : List String) (record : List (String × Json)) : Json :=
  .obj (record.filter fun f => !names.contains f.1)

/-- The fields that become part of a node, of the edge of a relationship, and of those of a
sighting. -/
def nodeFields : List String := ["type", "id", "name"]

def relationshipFields : List String :=
  ["type", "id", "relationship_type", "source_ref", "target_ref"]

def sightingFields : List String := ["type", "id", "sighting_of_ref", "where_sighted_refs"]

/-- A mutation that an object asks for. -/
structure Item where
  index : Nat
  id : String
  kind : Kind
  mutation : Mutation

/-- All that an import would add, with what was found on the way. -/
structure Candidate where
  items : List Item := []
  issues : List Issue := []
  warnings : List Warning := []
  skipped : Nat := 0
  byType : Table Nat := .empty

namespace Candidate

def count (c : Candidate) (type : String) : Candidate :=
  { c with byType := c.byType.put type ((c.byType.get? type).getD 0 + 1) }

def skip (c : Candidate) : Candidate := { c with skipped := c.skipped + 1 }

def complain (c : Candidate) (o : ValidObject) (cause : IssueCause) : Candidate :=
  let issue : Issue := { index := o.index, id := some o.id, type := some o.kind.word, cause }
  { c with issues := c.issues ++ [issue] }

def warn (c : Candidate) (o : ValidObject) (cause : WarningCause) : Candidate :=
  { c with warnings := c.warnings ++ [⟨o.index, o.id, cause⟩] }

def add (c : Candidate) (item : Item) : Candidate := { c with items := c.items ++ [item] }

end Candidate

/-- What the nodes of an import come to: the candidate so far, the ids of the nodes to be, those of
the objects left out, and the next free slot of the grid. -/
structure NodeStage where
  candidate : Candidate := {}
  staged : List String := []
  filtered : List String := []
  slot : Nat

def nodeOf (o : Options) (v : ValidObject) (typeId : String) (slot : Nat) : Except Fault Node := do
  let position ← gridPosition o slot
  return { id := v.id, typeId
           properties := .ofEntries [("name", .str (labelOf v.raw)), ("stixType", .str v.kind.word),
             ("stix", without nodeFields v.raw)]
           position }

/-- The node type of a preset that a kind is mapped to. -/
def nodeTypeFor? (p : Preset) (o : Options) (k : Kind) : Option String :=
  (Entries.get? k.word o.typeOf).filter fun t => (p.nodeType? t).isSome

def stageNode (p : Preset) (o : Options) (d : Document) (s : NodeStage) (v : ValidObject) :
    Except Fault NodeStage := do
  let c := s.candidate.count v.kind.word
  if !o.accepts v.kind.word then
    return { s with candidate := c.skip, filtered := v.id :: s.filtered }
  match nodeTypeFor? p o v.kind with
  | none => return { s with candidate := c.complain v (.unmappedType v.kind.word p.id) }
  | some typeId =>
    if d.nodes.has v.id then return { s with candidate := c.warn v (.nodeExists v.id) }
    let node ← nodeOf o v typeId s.slot
    return { s with
      candidate := c.add ⟨v.index, v.id, v.kind, .addNode node⟩
      staged := v.id :: s.staged
      slot := s.slot + 1 }

/-- Which nodes there will be and which objects are left out. -/
structure Known where
  nodes : List String
  filtered : List String

/-- The candidate after an object's references were looked up, and whether all are known. The first
one that is not is told. -/
def resolve (k : Known) (c : Candidate) (v : ValidObject) : List String → Candidate × Bool
  | [] => (c, true)
  | ref :: rest =>
    if k.nodes.contains ref then resolve k c v rest
    else if k.filtered.contains ref then (c.skip.warn v (.filteredReference ref), false)
    else (c.complain v (.unknownReference ref), false)

def addEdge (d : Document) (c : Candidate) (v : ValidObject) (e : Edge) : Candidate :=
  if d.edges.has e.id then c.warn v (.edgeExists e.id)
  else c.add ⟨v.index, e.id, v.kind, .addEdge e⟩

def textAt (record : List (String × Json)) (name : String) : String :=
  ((Entries.get? name record).bind Json.str?).getD ""

def stageRelationship (p : Preset) (o : Options) (d : Document) (k : Known) (c : Candidate)
    (v : ValidObject) : Candidate :=
  let name := textAt v.raw "relationship_type"
  match (Entries.get? name o.relationshipOf).filter fun r => (p.relationship? r).isSome with
  | none => c.complain v (.unmappedRelationship name p.id)
  | some typeId =>
    let source := textAt v.raw "source_ref"
    let target := textAt v.raw "target_ref"
    match resolve k c v [source, target] with
    | (c, false) => c
    | (c, true) => addEdge d c v
      { id := v.id, typeId, source, target
        properties := .ofEntries
          [("stixType", .str name), ("stix", without relationshipFields v.raw)] }

/-- The properties of the edges of a sighting; a count is among them when it is given. -/
def sightingProperties (v : ValidObject) : Table Json :=
  let count := match Entries.get? "count" v.raw with
    | none | some .null => []
    | some n => [("count", n)]
  .ofEntries ([("stixType", .str Kind.sighting.word), ("stix", without sightingFields v.raw)] ++ count)

def stageSighting (p : Preset) (o : Options) (d : Document) (k : Known) (c : Candidate)
    (v : ValidObject) : Candidate :=
  let typeId := o.sightingRelationship
  if (p.relationship? typeId).isNone then c.complain v (.noSightingRelationship typeId p.id)
  else
    let places := textsAt v.raw "where_sighted_refs"
    if places.isEmpty then c.warn v .emptySighting
    else
      let source := textAt v.raw "sighting_of_ref"
      match resolve k c v (source :: places) with
      | (c, false) => c
      | (c, true) =>
        places.zipIdx.foldl (fun c (target, i) =>
          let id := if places.length = 1 then v.id else s!"{v.id}#{i}"
          addEdge d c v { id, typeId, source, target, properties := sightingProperties v }) c

def stageConnection (p : Preset) (o : Options) (d : Document) (k : Known) (c : Candidate)
    (v : ValidObject) : Candidate :=
  let c := c.count v.kind.word
  if !o.relationships || !o.accepts v.kind.word then c.skip
  else if v.kind = .relationship then stageRelationship p o d k c v
  else stageSighting p o d k c v

/-- The mutations that valid objects ask for: first all nodes, then all edges. -/
def mapToGraph (p : Preset) (o : Options) (d : Document) (valid : List ValidObject) :
    Except Fault Candidate := do
  let things := valid.filter fun v => !v.kind.connects
  let connections := valid.filter fun v => v.kind.connects
  let s ← things.foldlM (stageNode p o d) { slot := d.nodes.size }
  let known : Known := { nodes := s.staged ++ d.nodes.keys, filtered := s.filtered }
  return connections.foldl (stageConnection p o d known) s.candidate

end GraphWorkbench.Stix
