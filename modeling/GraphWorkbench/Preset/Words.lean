import GraphWorkbench.Preset.Basic
/-!
The words by which the exchange format and messages name the choices of a preset.
-/
namespace GraphWorkbench

def PropertyKind.words : List (String × PropertyKind) :=
  [("string", .text), ("number", .number), ("boolean", .boolean), ("date", .date), ("url", .url),
    ("enum", .choice), ("multiselect", .choices)]

def PropertyKind.word : PropertyKind → String
  | .text => "string"
  | .number => "number"
  | .boolean => "boolean"
  | .date => "date"
  | .url => "url"
  | .choice => "enum"
  | .choices => "multiselect"

def Check.words : List (String × Check) :=
  [("pattern", .pattern), ("min", .min), ("max", .max), ("min-length", .minLength),
    ("max-length", .maxLength), ("one-of", .oneOf)]

def Check.word : Check → String
  | .pattern => "pattern"
  | .min => "min"
  | .max => "max"
  | .minLength => "min-length"
  | .maxLength => "max-length"
  | .oneOf => "one-of"

def Shape.words : List (String × Shape) :=
  [("rectangle", .rectangle), ("rounded", .rounded), ("circle", .circle), ("diamond", .diamond),
    ("hexagon", .hexagon)]

def Shape.word : Shape → String
  | .rectangle => "rectangle"
  | .rounded => "rounded"
  | .circle => "circle"
  | .diamond => "diamond"
  | .hexagon => "hexagon"

def Multiplicity.words : List (String × Multiplicity) :=
  [("one-to-one", .oneToOne), ("one-to-many", .oneToMany), ("many-to-many", .manyToMany)]

def Multiplicity.word : Multiplicity → String
  | .oneToOne => "one-to-one"
  | .oneToMany => "one-to-many"
  | .manyToMany => "many-to-many"

def Directionality.words : List (String × Directionality) :=
  [("directed", .directed), ("undirected", .undirected), ("bidirectional", .bidirectional)]

def Directionality.word : Directionality → String
  | .directed => "directed"
  | .undirected => "undirected"
  | .bidirectional => "bidirectional"

def StrokeStyle.words : List (String × StrokeStyle) :=
  [("solid", .solid), ("dashed", .dashed), ("dotted", .dotted)]

def StrokeStyle.word : StrokeStyle → String
  | .solid => "solid"
  | .dashed => "dashed"
  | .dotted => "dotted"

def Theme.words : List (String × Theme) := [("light", .light), ("dark", .dark)]

def Theme.word : Theme → String
  | .light => "light"
  | .dark => "dark"

def StepDirection.words : List (String × StepDirection) :=
  [("out", .outward), ("in", .inward), ("any", .either)]

def StepDirection.word : StepDirection → String
  | .outward => "out"
  | .inward => "in"
  | .either => "any"

def DerivationKind.words : List (String × DerivationKind) :=
  [("neighbors", .neighbors), ("path", .path), ("transitive", .transitive),
    ("property-match", .propertyMatch), ("by-type", .byType)]

def DerivationKind.word : DerivationKind → String
  | .neighbors => "neighbors"
  | .path => "path"
  | .transitive => "transitive"
  | .propertyMatch => "property-match"
  | .byType => "by-type"

def Severity.words : List (String × Severity) :=
  [("critical", .critical), ("high", .high), ("medium", .medium), ("low", .low), ("info", .info)]

def Severity.word : Severity → String
  | .critical => "critical"
  | .high => "high"
  | .medium => "medium"
  | .low => "low"
  | .info => "info"

/-- The place of a severity, the gravest being zero. -/
def Severity.rank : Severity → Nat
  | .critical => 0
  | .high => 1
  | .medium => 2
  | .low => 3
  | .info => 4

end GraphWorkbench
