import GraphWorkbench.Workspace.Session
/-!
The service in front of a session: requests name an endpoint by method and path, and are answered
with a status and a body. What was asked wrongly is answered too; only what no status stands for
ends a request without a reply.
-/
namespace GraphWorkbench.Workspace

inductive Body where
  | empty
  | value (v : Json)
  /-- An uploaded file. -/
  | file (bytes : List UInt8)

structure Request where
  method : String
  path : String
  query : List (String × String) := []
  body : Body := .empty

namespace Request

/-- A parameter of the query; given more than once, the last one counts. -/
def parameter? (r : Request) (name : String) : Option String := Entries.get? name r.query.reverse

/-- An uploaded file, to be read by what its bytes say. -/
def upload? (r : Request) : Option Json.Source :=
  match r.body with
  | .file bytes => some (.bytes bytes)
  | _ => none

end Request

structure Reply where
  status : Nat
  body : Json
deriving DecidableEq

namespace Reply

def ok (body : Json) : Reply := ⟨200, body.portable⟩

/-- A reply that says why there is no other. -/
def refusal (status : Nat) (detail : Json) : Reply := ⟨status, .obj [("detail", detail)]⟩

def placeJson (path : List Schema.Step) : Json :=
  .arr <| path.map fun
    | .key name => .str name
    | .index i => .int i

/-- The reply to a body of the wrong shape; places start at the body. -/
def misshapen (issues : List Schema.Issue) : Reply :=
  .refusal 422 <| .arr <| issues.map fun i =>
    .obj [("type", .str i.flaw.code), ("loc", placeJson (.key "body" :: i.path)),
      ("msg", .str i.flaw.message)]

end Reply

inductive Endpoint where
  | health
  | presets
  | load
  | document
  | replaceDocument
  | mutations
  | undo
  | redo
  | importBundle
  | inference
  | coverage
  | history
deriving DecidableEq

namespace Endpoint

/-- A path of the workspace. -/
def under (name : String) : String := s!"/api/v1/workspace/{name}"

/-- All endpoints by path and method. -/
def all : List (String × String × Endpoint) :=
  [("/health", "GET", .health), (under "presets", "GET", .presets), (under "load", "POST", .load),
    (under "document", "GET", .document), (under "document", "POST", .replaceDocument),
    (under "mutations", "POST", .mutations), (under "undo", "POST", .undo),
    (under "redo", "POST", .redo), (under "import/stix", "POST", .importBundle),
    (under "inference", "GET", .inference), (under "inference/coverage", "GET", .coverage),
    (under "history", "GET", .history)]

/-- A path without slashes at its end; the root stays. -/
def plainPath (path : String) : String :=
  let cs := path.toList.reverse.dropWhile (· == '/')
  if cs.isEmpty then path else String.ofList cs.reverse

/-- The endpoint of a request. A path is known with or without slashes at its end. -/
def find (r : Request) : Except Reply Endpoint :=
  match Entries.get? (plainPath r.path) all with
  | none => .error (.refusal 404 (.str "Not Found"))
  | some _ =>
    match all.find? fun e => e.1 == plainPath r.path && e.2.1 == r.method.toUpper with
    | some (_, _, endpoint) => .ok endpoint
    | none => .error (.refusal 405 (.str "Method Not Allowed"))

end Endpoint

/-- A session after a request, with the reply to it. -/
abbrev Served := Session × Except Stop Reply

namespace Session

/-- A reply that leaves the session as it is. -/
def answer (s : Session) (r : Except Stop Reply) : Served := (s, r)

def answerFault (s : Session) (r : Except Fault Json) : Served :=
  (s, (Stop.ofFault r).map .ok)

/-- The preset that a request to load one is about. -/
def requestedPreset (r : Request) : Except Fault (Except Reply Preset) := do
  match r.upload?, r.parameter? "preset" with
  | some source, _ => match ← Library.load source with
    | .ok p => return .ok p
    | .error violations => return .error (.refusal 422 (Library.refusalJson violations))
  | none, some name => match Library.find name with
    | .ok p => return .ok p
    | .error (.noKey text) => return .error (.refusal 400 (.str text))
    | .error f => throw f
  | none, none =>
    let text := "Provide either a file upload or a 'preset' query parameter."
    return .error (.refusal 400 (.str text))

def load (s : Session) (r : Request) : Served :=
  match requestedPreset r with
  | .error f => s.answer (.error (.fault f))
  | .ok (.error reply) => s.answer (.ok reply)
  | .ok (.ok p) => match s.usePreset p with
    | .error f => s.answer (.error (.fault f))
    | .ok s => (s, .ok (.ok (.obj [("preset", p.summary), ("document", s.document)])))

/-- Reads the body of a request, which must be given. -/
def readBody {α : Type} (d : Json → Schema.Decoded α) (noValue : Schema.Flaw) (r : Request) :
    Schema.Decoded α :=
  match r.body with
  | .empty | .value .null => Schema.fault .missing
  | .file _ => Schema.fault noValue
  | .value v => d v

def replaceDocument (s : Session) (r : Request) : Served :=
  let fields := fun (v : Json) => match v with
    | .obj _ => .ok v
    | _ => Schema.fault .notTable
  match readBody fields .notTable r with
  | .error issues => s.answer (.ok (.misshapen issues))
  | .ok v => match Exchange.load s.store.preset v with
    | .error f => s.answer (.error (.fault f))
    | .ok (.error violations) => s.answer (.ok (.refusal 422 (Exchange.refusalJson violations)))
    | .ok (.ok d) =>
      let s := { s with store := s.store.load d }
      (s, .ok (.ok s.document))

/-- The mutation in the body of a request. -/
def requestedMutation : Json → Schema.Decoded Mutation
  | .obj fields => Schema.required fields "mutation" "mutation" Mutation.decode
  | _ => Schema.fault .notObject

def mutate (s : Session) (r : Request) : Served :=
  match readBody requestedMutation .notObject r with
  | .error issues => s.answer (.ok (.misshapen issues))
  | .ok m =>
    let (store, result) := s.store.apply m
    let s := { s with store }
    match result with
    | .ok _ => (s, .ok (.ok s.document))
    | .error (.rejected r) => (s, .ok (.refusal 409 r.toJson))
    | .error stop => (s, .error stop)

/-- The reply to a step through the history; one that there is nothing for is refused. -/
def answerStep (s : Session) (step : Store × Except Fault Bool) (none : String) : Served :=
  let s := { s with store := step.1 }
  match step.2 with
  | .ok true => (s, .ok (.ok s.document))
  | .ok false => (s, .ok (.refusal 409 (.str none)))
  | .error f => (s, .error (.fault f))

def importBundle (s : Session) (r : Request) : Served :=
  match r.upload? with
  | none => s.answer (.ok (.misshapen [⟨[.key "file"], .missing⟩]))
  | some source =>
    let (store, result) := Stix.importInto s.store s.settings.importOptions (.source source) false
    let s := { s with store }
    match result with
    | .ok summary =>
      (s, .ok (.ok (.obj [("summary", summary.toJson), ("document", s.document)])))
    | .error (.bundle e) => (s, .ok (.refusal 400 e.toJson))
    | .error .cancelled => (s, .ok (.refusal 409 Stix.cancellationJson))
    | .error (.stop stop) => (s, .error stop)

/-- What is told of derivations: all fields, those left open with the values they have by
themselves. -/
def inferenceJson (fields : List (String × Json)) : Json :=
  .obj <| Entries.merge
    [("edges", .arr []), ("attributes", .obj []), ("passes", .int 0), ("converged", .bool true),
      ("warnings", .arr []), ("node_id", .null)] fields

def nodeInferenceJson (i : Inference.NodeInference) : Json :=
  let attributes := if i.attributes.entries.isEmpty then [] else [(i.node, Json.ofTable i.attributes)]
  inferenceJson [("node_id", .str i.node), ("edges", .arr (i.edges.map fun e => e.toEdge.toJson)),
    ("attributes", .obj attributes), ("converged", .bool i.converged)]

def answerInference (s : Session) (r : Request) : Served :=
  match r.parameter? "node_id" with
  | none => s.answerFault (s.inference.map fun i => inferenceJson i.fields)
  | some node => match s.nodeInference node with
    | .ok i => s.answer (.ok (.ok (nodeInferenceJson i)))
    | .error (.rejected r) => s.answer (.ok (.refusal 404 r.toJson))
    | .error stop => s.answer (.error stop)

/-- Serves a request to an endpoint. -/
def serve (s : Session) (r : Request) : Endpoint → Served
  | .health => s.answer (.ok (.ok (.obj [("status", .str "ok")])))
  | .presets => s.answer (.ok (.ok s.presets))
  | .load => s.load r
  | .document => s.answer (.ok (.ok s.document))
  | .replaceDocument => s.replaceDocument r
  | .mutations => s.mutate r
  | .undo => s.answerStep s.store.undo "Nothing to undo."
  | .redo => s.answerStep s.store.redo "Nothing to redo."
  | .importBundle => s.importBundle r
  | .inference => s.answerInference r
  | .coverage => s.answerFault (s.coverage.map Coverage.toJson)
  | .history => s.answer (.ok (.ok s.chronicle))

/-- Answers a request. -/
def handle (s : Session) (r : Request) : Served :=
  match Endpoint.find r with
  | .error reply => s.answer (.ok reply)
  | .ok endpoint => s.serve r endpoint

end Session

end GraphWorkbench.Workspace
