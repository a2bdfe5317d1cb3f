import GraphWorkbench.Inference.Engine
/-!
How well sensors cover a document. A sensor is a node of a type with a class that some mapping is
keyed on; it scores the highest confidence among the edges derived from it.
-/
namespace GraphWorkbench

structure Sensor where
  node : String
  typeId : String
  detects : List String
  score : Nat
deriving DecidableEq

structure Coverage where
  score : Nat
  sensors : List Sensor
deriving DecidableEq

namespace Coverage

def sensorClasses (p : Preset) : List String := p.mappings.filterMap (·.ontologyClass)

/-- The coverage by the edges of an inference. The whole scores the mean of its sensors, rounded to
the nearest natural, a half to the even one. -/
def ofInference (p : Preset) (d : Document) (i : Inference) : Coverage :=
  let isSensor := fun (n : Node) => match Inference.classOf p n.typeId with
    | some c => (sensorClasses p).contains c
    | none => false
  let sensors := (d.nodes.values.filter isSensor).map fun n =>
    let derived := i.edges.filter fun e => e.source == n.id
    { node := n.id, typeId := n.typeId
      detects := (derived.map (·.target)).mergeSort (· ≤ ·)
      score := derived.foldl (fun best e => max best e.confidence) 0 }
  let total := (sensors.map Sensor.score).foldl (· + ·) 0
  { score := if sensors.isEmpty then 0 else Binary64.divNearest total sensors.length, sensors }

def toJson (c : Coverage) : Json :=
  .obj [("score", .int c.score), ("sensors", .arr (c.sensors.map fun s =>
    .obj [("nodeId", .str s.node), ("typeId", .str s.typeId), ("detects", .ofStrings s.detects),
      ("coverageScore", .int s.score)]))]

end Coverage

end GraphWorkbench
