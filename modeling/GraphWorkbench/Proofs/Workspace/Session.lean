import GraphWorkbench.Proofs.Document.Reachable
import GraphWorkbench.Proofs.Document.Reload
import GraphWorkbench.Workspace.Service
/-!
What a session promises of its document, whatever was asked of it before: the document is valid for
the preset in use, and a document that was handed out is taken back as it is.
-/
namespace GraphWorkbench

namespace Workspace

theorem Endpoint.find_document :
    find { method := "GET", path := under "document" } = .ok .document :=
  Outcome.eq_ok_of_toOption (by decide +kernel)

theorem Endpoint.find_replaceDocument (body : Body) :
    find { method := "POST", path := under "document", body } = .ok .replaceDocument := by
  have h : find { method := "POST", path := under "document" } = .ok .replaceDocument :=
    Outcome.eq_ok_of_toOption (by decide +kernel)
  simpa only [find] using h

end Workspace

namespace Workspace.Session

/-- What can be asked of a session that may change it. -/
inductive Move where
  | usePreset (p : Preset)
  | load (v : Json)
  | apply (m : Mutation)
  | undo
  | redo
  | importBundle (o : Stix.Options) (origin : Stix.Bundle.Origin) (cancelled : Bool)
  /-- A request to the service in front of the session. -/
  | request (r : Request)

/-- A session after a move. A preset that cannot be used and a document that is not loaded leave it
as it is. -/
def move (s : Session) : Move → Session
  | .usePreset p => match s.usePreset p with
    | .ok s' => s'
    | .error _ => s
  | .load v => match Exchange.load s.store.preset v with
    | .ok (.ok d) => { s with store := s.store.load d }
    | _ => s
  | .apply m => { s with store := (s.store.apply m).1 }
  | .undo => { s with store := s.store.undo.1 }
  | .redo => { s with store := s.store.redo.1 }
  | .importBundle o origin cancelled =>
    { s with store := (Stix.importInto s.store o origin cancelled).1 }
  | .request r => (s.handle r).1

def run (s : Session) (moves : List Move) : Session := moves.foldl move s

variable {s : Session} {p : Preset} {log : EventLog Notice} {store : Store}

/-- The store of a session is reachable for the preset that is in use. -/
def Reachable (s : Session) : Prop := s.store.Reachable s.store.preset

theorem reachable_of_store (settings : Settings) (h : store.Reachable p) :
    Reachable ⟨settings, store⟩ := by
  have hpreset : store.preset = p := h.invariant.1
  unfold Reachable
  rwa [hpreset]

theorem reachable_emptyStore (settings : Settings) (h : emptyStore p log = .ok store) :
    Reachable ⟨settings, store⟩ :=
  reachable_of_store settings (.blank (by decide) h)

theorem usePreset_eq_ok {s' : Session} (h : s.usePreset p = .ok s') :
    ∃ store, emptyStore p s.store.log = .ok store ∧ s' = { s with store } := by
  obtain ⟨store, hstore, hs⟩ := Outcome.bind_eq_ok.mp h
  rw [Outcome.pure_eq_ok, Except.ok.injEq] at hs
  exact ⟨store, hstore, hs.symm⟩

theorem reachable_usePreset {s' : Session} (h : s.usePreset p = .ok s') : s'.Reachable := by
  obtain ⟨store, hstore, rfl⟩ := usePreset_eq_ok h
  exact reachable_emptyStore s.settings hstore

namespace Reachable

/-! A session stays reachable whatever a request asks of it. -/

theorem load (h : s.Reachable) (r : Request) : (s.load r).1.Reachable := by
  unfold Session.load
  split
  next => exact h
  next => exact h
  next p _ =>
    split
    next => exact h
    next s' husing => exact reachable_usePreset husing

theorem replaceDocument (h : s.Reachable) (r : Request) : (s.replaceDocument r).1.Reachable := by
  unfold Session.replaceDocument
  simp only
  split
  next => exact h
  next v _ =>
    split
    next => exact h
    next => exact h
    next d loads => exact reachable_of_store s.settings (.load h loads)

theorem mutate (h : s.Reachable) (r : Request) : (s.mutate r).1.Reachable := by
  unfold Session.mutate
  split
  next => exact h
  next m _ =>
    have hreach := reachable_of_store s.settings (.apply h m)
    simp only
    split <;> exact hreach

theorem answerStep {step : Store × Except Fault Bool} (h : step.1.Reachable p) (none : String) :
    (s.answerStep step none).1.Reachable := by
  have hreach := reachable_of_store s.settings h
  unfold Session.answerStep
  simp only
  split <;> exact hreach

theorem importBundle (h : s.Reachable) (r : Request) : (s.importBundle r).1.Reachable := by
  unfold Session.importBundle
  split
  next => exact h
  next source _ =>
    have hreach := reachable_of_store s.settings
      (.importInto h s.settings.importOptions (.source source) false)
    simp only
    split <;> exact hreach

theorem answerInference (h : s.Reachable) (r : Request) : (s.answerInference r).1.Reachable := by
  unfold Session.answerInference
  split
  next => exact h
  next node _ => split <;> exact h

theorem handle (h : s.Reachable) (r : Request) : (s.handle r).1.Reachable := by
  unfold Session.handle
  split
  next => exact h
  next endpoint _ =>
    cases endpoint with
    | load => exact h.load r
    | replaceDocument => exact h.replaceDocument r
    | mutations => exact h.mutate r
    | undo => exact answerStep (.undo h) _
    | redo => exact answerStep (.redo h) _
    | importBundle => exact h.importBundle r
    | inference => exact h.answerInference r
    | health | presets | document | coverage | history => exact h

end Reachable

theorem Reachable.move (h : s.Reachable) (m : Move) : (s.move m).Reachable := by
  cases m with
  | usePreset p =>
    rw [Session.move]
    split
    next s' husing => exact reachable_usePreset husing
    next => exact h
  | load v =>
    rw [Session.move]
    split
    next d loads => exact reachable_of_store s.settings (.load h loads)
    next => exact h
  | apply m => exact reachable_of_store s.settings (.apply h m)
  | undo => exact reachable_of_store s.settings (.undo h)
  | redo => exact reachable_of_store s.settings (.redo h)
  | importBundle o origin cancelled =>
    exact reachable_of_store s.settings (.importInto h o origin cancelled)
  | request r => exact h.handle r

theorem Reachable.run (h : s.Reachable) (moves : List Move) : (s.run moves).Reachable := by
  induction moves generalizing s with
  | nil => exact h
  | cons m rest ih => exact ih (h.move m)

/-- Whatever is asked of a session, in whatever order, its document is a valid one of the preset
that is in use. -/
theorem valid_of_run (settings : Settings) (started : emptyStore p log = .ok store)
    (moves : List Move) :
    let s := run ⟨settings, store⟩ moves
    s.store.document.Valid s.store.preset := by
  intro s
  have hreach : s.Reachable := (reachable_emptyStore settings started).run moves
  exact (Store.Reachable.sound hreach).valid

/-- A batch, an edge, a refused batch, a document that is not loaded, a removal with what hangs on
it, and a request for a step back. -/
theorem valid_of_run_mixed :
    let p := Library.topology
    let log : EventLog Notice := { limit := 5 }
    let history : History := { limit := 100, limit_pos := by decide }
    let store : Store := { preset := p, document := .blank p, history, log }
    let moves : List Move :=
      [.apply (.batch none [.addNode { id := "a", typeId := "cloud" },
          .batch none [.addNode { id := "b", typeId := "cloud" }]]),
        .apply (.addEdge { id := "e", typeId := "depends-on", source := "a", target := "b" }),
        .apply (.batch none [.removeNode "b", .removeNode "c"]),
        .load (.arr []), .apply (.removeNode "b"),
        .request { method := "POST", path := Endpoint.under "undo" }]
    let s := run ⟨{}, store⟩ moves
    emptyStore p log = .ok store ∧ s.store.document.Valid s.store.preset ∧
      s.store.document.edges.keys = ["e"] := by
  intro p log history store moves s
  have started : emptyStore p log = .ok store := rfl
  exact ⟨started, valid_of_run {} started moves, by decide +kernel⟩

/-! A document that was handed out is taken back. -/

theorem portable_document (finite : s.store.document.Finite) : s.document.portable = s.document := by
  have hfields := Document.exportFields_finite finite
  have hsteps : Json.FiniteFields [("can_undo", .bool s.store.history.canUndo),
      ("can_redo", .bool s.store.history.canRedo)] := ⟨trivial, trivial, trivial⟩
  exact Json.portable_of_finite (v := s.document) (Json.finiteFields_append hfields hsteps)

theorem handle_document {ask : Request} (asks : Endpoint.find ask = .ok .document) :
    s.handle ask = (s, .ok (.ok s.document)) := by
  rw [handle, asks]
  rfl

theorem handle_replaceDocument {post : Request} {fields : List (String × Json)} {d : Document}
    (posts : Endpoint.find post = .ok .replaceDocument) (body : post.body = .value (.obj fields))
    (loads : Exchange.load s.store.preset (.obj fields) = .ok (.ok d)) :
    s.handle post = ({ s with store := s.store.load d },
      .ok (.ok (document { s with store := s.store.load d }))) := by
  rw [handle, posts]
  simp only [serve, replaceDocument, readBody, body, loads]

/-- What can come about as the document of a store is loaded back as it is, in the same order, from
its export; and what is handed out of it is taken back when it is posted. -/
theorem load_export (reachable : store.Reachable p) (finite : store.document.Finite) :
    Exchange.load p store.document.export = .ok (.ok store.document) ∧
    ∀ settings ask, Endpoint.find ask = .ok .document →
      ∃ reply, handle ⟨settings, store⟩ ask = (⟨settings, store⟩, .ok reply) ∧
        ∀ post, Endpoint.find post = .ok .replaceDocument → post.body = .value reply.body →
          ∃ answer, answer.status = 200 ∧ handle ⟨settings, store⟩ post =
            (⟨settings, store.load store.document⟩, .ok answer) := by
  have hsound := reachable.sound
  have hpreset : store.preset = p := reachable.invariant.1
  refine ⟨?_, ?_⟩
  · have hload := Exchange.load_exportFields hsound finite []
    rwa [List.append_nil] at hload
  · intro settings ask asks
    refine ⟨_, handle_document asks, ?_⟩
    intro post posts hbody
    have hportable : (document ⟨settings, store⟩).portable = document ⟨settings, store⟩ :=
      portable_document finite
    have hbody' : post.body = .value (document ⟨settings, store⟩) := by
      rw [hbody, Reply.ok, hportable]
    refine ⟨_, rfl, handle_replaceDocument posts hbody' ?_⟩
    rw [hpreset]
    exact Exchange.load_exportFields hsound finite _

/-- An edge that is removed and brought back stands in its old place. It could not have been added
after the other edge, which starts where it ends; in its old place it is loaded. -/
theorem load_export_after_undo :
    let n : NodeType := { id := "host", name := "Host", style := { color := "#000000" } }
    let r : Relationship :=
      { id := "link", name := "Link", sourceTypes := ["host"], targetTypes := ["host"],
        multiplicity := .oneToMany, directionality := .undirected }
    let p : Preset :=
      { id := "net", name := "Net", version := "1.0.0", nodeTypes := [n], relationships := [r] }
    let history : History := { limit := 100, limit_pos := by decide }
    let s₀ : Store := { preset := p, document := .blank p, history, log := { limit := 5 } }
    let s₁ := (s₀.apply (.batch none [.addNode { id := "a", typeId := "host" },
      .addNode { id := "b", typeId := "host" }, .addNode { id := "c", typeId := "host" },
      .addEdge { id := "ab", typeId := "link", source := "a", target := "b" },
      .addEdge { id := "bc", typeId := "link", source := "b", target := "c" }])).1
    let s := (s₁.apply (.removeEdge "ab")).1.undo.1
    let get : Request := { method := "GET", path := Endpoint.under "document" }
    let post (body : Json) : Request :=
      { method := "POST", path := Endpoint.under "document", body := .value body }
    s.Reachable p ∧ s.document.Finite ∧ s.document.edges.keys = ["ab", "bc"] ∧
      Exchange.load p s.document.export = .ok (.ok s.document) ∧
      ∃ reply answer, answer.status = 200 ∧
        handle ⟨{}, s⟩ get = (⟨{}, s⟩, .ok reply) ∧
        handle ⟨{}, s⟩ (post reply.body) = (⟨{}, s.load s.document⟩, .ok answer) := by
  intro n r p history s₀ s₁ s get post
  have created : Store.create p (.blank p) none { limit := 5 } = .ok s₀ := rfl
  have reachable : s.Reachable p :=
    .undo (.apply (.apply (.blank (by decide) created) _) _)
  have finite : s.document.Finite := by decide
  obtain ⟨hload, hserve⟩ := load_export reachable finite
  obtain ⟨reply, hget, hpost⟩ := hserve {} get Endpoint.find_document
  obtain ⟨answer, hstatus, hanswer⟩ := hpost (post reply.body) (Endpoint.find_replaceDocument _) rfl
  exact ⟨reachable, finite, by decide, hload, reply, answer, hstatus, hget, hanswer⟩

end Workspace.Session

end GraphWorkbench
