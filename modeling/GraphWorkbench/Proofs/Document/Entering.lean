import GraphWorkbench.Proofs.Document.Loading
import GraphWorkbench.Proofs.Document.Timeline
import GraphWorkbench.Proofs.Schema.Telling
/-!
Loading a document is entering its elements by hand. A loader has one draft that it never commits,
and a store plans and commits each element for itself. Both come to the same, since what is added
to a draft depends on its working copy only and a refused element leaves no trace in either.
-/
namespace GraphWorkbench

open Outcome

namespace Schema.Explains

theorem position : Explains Position.decode :=
  record fun _ => ((Tells.ok _).ap (.optional number)).ap (.optional number)

theorem node : Explains Node.decode :=
  record fun _ => ((((Tells.ok _).ap (.required string)).ap (.required string)).ap
    (.optional anyTable)).ap (.optional position)

theorem edge : Explains Edge.decode :=
  record fun _ => ((((((Tells.ok _).ap (.required string)).ap (.required string)).ap
    (.required string)).ap (.required string)).ap (.optional anyTable)).ap (.optional boolean)

end Schema.Explains

namespace Draft

variable {p : Preset} {d : Draft} {m : Mutation}

/-- The mutations that put an element into a document. -/
inductive Adds : Mutation → Prop
  | node (n : Node) : Adds (.addNode n)
  | edge (e : Edge) : Adds (.addEdge e)

/-- What is checked of a node before it is put into a document. -/
def nodeCheck (p : Preset) (doc : Document) (n : Node) : Except Stop Unit := do
  if doc.nodes.has n.id then throw (.rejected (.nodeExists n.id))
  p.checkNodeRoom doc.nodes.size n.id
  p.checkNode n

/-- What is checked of an edge before it is put into a document. -/
def edgeCheck (p : Preset) (doc : Document) (e : Edge) : Except Stop Unit := do
  if e.inferred then throw (.rejected (.inferredEdge e.id))
  if doc.edges.has e.id then throw (.rejected (.edgeExists e.id))
  p.checkEdgeRoom doc.edges.size e.id
  p.checkEdge doc.nodes doc.edges e

theorem addNode_eq (n : Node) : d.addNode p n =
    nodeCheck p d.working n >>= fun _ => Stop.ofFault (d.insertNode n.id n) := by
  unfold addNode nodeCheck
  cases d.working.nodes.has n.id with
  | true => rfl
  | false =>
    cases p.checkNodeRoom d.working.nodes.size n.id with
    | error stop => rfl
    | ok _ => rfl

theorem addEdge_eq (e : Edge) : d.addEdge p e =
    edgeCheck p d.working e >>= fun _ => Stop.ofFault (d.insertEdge e.id e) := by
  unfold addEdge edgeCheck
  cases e.inferred with
  | true => rfl
  | false =>
    cases d.working.edges.has e.id with
    | true => rfl
    | false =>
      cases p.checkEdgeRoom d.working.edges.size e.id with
      | error stop => rfl
      | ok _ => rfl

theorem fresh_of_nodeCheck {doc : Document} {n : Node} (h : nodeCheck p doc n = .ok ()) :
    doc.nodes.has n.id = false := by
  unfold nodeCheck at h
  cases hhas : doc.nodes.has n.id with
  | true => simp [hhas, throw_bind] at h
  | false => rfl

theorem fresh_of_edgeCheck {doc : Document} {e : Edge} (h : edgeCheck p doc e = .ok ()) :
    doc.edges.has e.id = false := by
  unfold edgeCheck at h
  cases hinferred : e.inferred with
  | true => simp [hinferred, throw_bind] at h
  | false =>
    cases hhas : doc.edges.has e.id with
    | true => simp [hinferred, hhas, throw_bind] at h
    | false => rfl

/-- Whether an element is added, and by which change, can be told from the working copy alone. -/
theorem stage_of_working (adds : Adds m) (doc : Document) :
    (∃ c w, c.Leads doc w ∧ ∀ d : Draft, d.working = doc → stage p d m = (d.push c w, none)) ∨
      ∃ stop, ∀ d : Draft, d.working = doc → stage p d m = (d, some stop) := by
  cases adds with
  | node n =>
    cases hcheck : nodeCheck p doc n with
    | error stop =>
      refine .inr ⟨stop, fun d hd => ?_⟩
      rw [stage_of_single rfl, perform, addNode_eq, hd, hcheck]
      rfl
    | ok _ =>
      have fresh := fresh_of_nodeCheck hcheck
      refine .inl ⟨.node (.insert n.id doc.nodes.size n),
        { doc with nodes := doc.nodes.put n.id n }, .node (Change.leads_put_new fresh),
        fun d hd => ?_⟩
      subst hd
      rw [stage_of_single rfl, perform, addNode_eq, hcheck, ok_bind, insertNode_eq fresh]
      rfl
  | edge e =>
    cases hcheck : edgeCheck p doc e with
    | error stop =>
      refine .inr ⟨stop, fun d hd => ?_⟩
      rw [stage_of_single rfl, perform, addEdge_eq, hd, hcheck]
      rfl
    | ok _ =>
      have fresh := fresh_of_edgeCheck hcheck
      refine .inl ⟨.edge (.insert e.id doc.edges.size e),
        { doc with edges := doc.edges.put e.id e }, .edge (Change.leads_put_new fresh),
        fun d hd => ?_⟩
      subst hd
      rw [stage_of_single rfl, perform, addEdge_eq, hcheck, ok_bind, insertEdge_eq fresh]
      rfl

/-- An addition to a draft goes as it is planned on the working copy. -/
theorem stage_eq_plan (adds : Adds m) :
    (∃ c w, c.Leads d.working w ∧ stage p d m = (d.push c w, none) ∧
        plan p d.working m = .ok ([c], w)) ∨
      ∃ stop, stage p d m = (d, some stop) ∧ plan p d.working m = .error stop := by
  obtain ⟨c, w, hleads, hstage⟩ | ⟨stop, hstage⟩ := stage_of_working (p := p) adds d.working
  · refine .inl ⟨c, w, hleads, hstage d rfl, ?_⟩
    rw [plan, hstage (start d.working) rfl]
    rfl
  · refine .inr ⟨stop, hstage d rfl, ?_⟩
    rw [plan, hstage (start d.working) rfl]

end Draft

namespace Exchange

/-- What came of an element that was entered by hand. -/
inductive Entry where
  | unread (issues : List Schema.Issue)
  | passedOver
  | taken
  | refused (r : Rejection)

namespace Entry

/-- The element was read, and was applied if it asked for anything. -/
def Accepted : Entry → Prop
  | .passedOver | .taken => True
  | _ => False

/-- What a report says of an element that stands at a place of a list. -/
def violations (kind : String) (i : Nat) : Entry → List Violation
  | .unread issues => issues.map fun issue =>
      ⟨Schema.pathText (.key kind :: .index i :: issue.path), issue.flaw.message, issue.flaw.code⟩
  | .refused r => [⟨s!"{kind}.{i}", r.message, r.code⟩]
  | _ => []

/-- What a report says of elements, the first of which stands at a place of a list. -/
def violationsFrom (kind : String) (first : Nat) (entries : List Entry) : List Violation :=
  (entries.zipIdx first).flatMap fun e => e.1.violations kind e.2

end Entry

end Exchange

namespace Store

open Exchange (Entry)

/-- Enters an element by hand: it is read, and what it asks for is applied. -/
def enter {α : Type} (decode : Json → Schema.Decoded α) (mutation? : α → Option Mutation)
    (s : Store) (item : Json) : Except Fault (Store × Entry) :=
  match decode item with
  | .error issues => .ok (s, .unread issues)
  | .ok element => match mutation? element with
    | none => .ok (s, .passedOver)
    | some m => match s.apply m with
      | (s', .ok _) => .ok (s', .taken)
      | (s', .error (.rejected r)) => .ok (s', .refused r)
      | (_, .error (.fault f)) => .error f

/-- Enters elements one after another. One that fails is left out. -/
def enterAll {α : Type} (decode : Json → Schema.Decoded α) (mutation? : α → Option Mutation)
    (s : Store) : List Json → Except Fault (Store × List Entry)
  | [] => .ok (s, [])
  | item :: rest => do
    let (s, entry) ← s.enter decode mutation? item
    let (s, entries) ← s.enterAll decode mutation? rest
    return (s, entry :: entries)

/-- What came of all elements of a document, and the store after them. -/
structure Entered where
  store : Store
  nodes : List Entry
  edges : List Entry

/-- Enters nodes and then edges. -/
def enterElements (s : Store) (nodes edges : List Json) : Except Fault Entered := do
  let (s, nodes) ← s.enterAll Node.decode (some ∘ .addNode) nodes
  let (s, edges) ← s.enterAll Edge.decode Exchange.authored? edges
  return ⟨s, nodes, edges⟩

/-- All that a report says of the elements of a document. -/
def Entered.violations (run : Entered) : List Violation :=
  Entry.violationsFrom "nodes" 0 run.nodes ++ Entry.violationsFrom "edges" 0 run.edges

end Store

namespace Exchange

section Entering

variable {α : Type} {p : Preset} {draft : Draft} {s : Store} {mutation? : α → Option Mutation}

/-- A draft and a store have come to the same document. -/
structure Level (p : Preset) (draft : Draft) (s : Store) : Prop where
  recorded : draft.Recorded
  same : draft.working = s.document
  preset : s.preset = p

/-- Both take an addition, or neither does, for the same reason. -/
theorem Level.apply (h : Level p draft s) {m : Mutation} (adds : Draft.Adds m) :
    (∃ draft' s' changed, draft.stage p m = (draft', none) ∧ s.apply m = (s', .ok changed) ∧
      Level p draft' s') ∨
    ∃ s' stop, draft.stage p m = (draft, some stop) ∧ s.apply m = (s', .error stop) ∧
      Level p draft s' := by
  obtain ⟨hrecorded, hsame, rfl⟩ := h
  have hplanned := Draft.stage_eq_plan (p := s.preset) (d := draft) adds
  rw [hsame] at hplanned
  obtain ⟨c, w, hleads, hstage, hplan⟩ | ⟨stop, hstage, hplan⟩ := hplanned
  · refine .inl ⟨_, _, true, hstage, Store.apply_of_ne_nil hplan (List.cons_ne_nil c []), ?_⟩
    have hextends : draft.Extends [c] (draft.push c w) := .push (hsame.symm ▸ hleads)
    exact ⟨hrecorded.extends hextends, rfl, rfl⟩
  · obtain ⟨log, happly⟩ := Store.apply_of_stop hplan
    exact .inr ⟨_, stop, hstage, happly, hrecorded, hsame, rfl⟩

/-- Loading an element and entering it by hand come to the same. -/
theorem Level.loadElement_cases (h : Level p draft s) (kind : String) (i : Nat)
    (decode : Json → Schema.Decoded α) (adds : ∀ a m, mutation? a = some m → Draft.Adds m)
    (item : Json) :
    (∃ draft' s' entry, s.enter decode mutation? item = .ok (s', entry) ∧ Level p draft' s' ∧
      ∀ found, loadElement p kind decode mutation? (draft, found) (item, i) =
        .ok (draft', found ++ entry.violations kind i)) ∨
    ∃ f, s.enter decode mutation? item = .error f ∧
      ∀ found, loadElement p kind decode mutation? (draft, found) (item, i) = .error f := by
  unfold Exchange.loadElement Store.enter
  cases decode item with
  | error issues => exact .inl ⟨draft, s, .unread issues, rfl, h, fun found => rfl⟩
  | ok a =>
    cases hmutation : mutation? a with
    | none =>
      refine .inl ⟨draft, s, .passedOver, by simp only [hmutation], h, fun found => ?_⟩
      simp only [hmutation, Entry.violations, List.append_nil]
    | some m =>
      simp only [hmutation]
      obtain ⟨draft', s', changed, hstage, happly, hlevel⟩ | ⟨s', stop, hstage, happly, hlevel⟩ :=
        h.apply (adds a m hmutation)
      · refine .inl ⟨draft', s', .taken, by rw [happly], hlevel, fun found => ?_⟩
        simp only [stageAt, hstage, Entry.violations, List.append_nil]
      · cases stop with
        | rejected r =>
          refine .inl ⟨draft, s', .refused r, by rw [happly], hlevel, fun found => ?_⟩
          simp only [stageAt, hstage, Entry.violations]
        | fault f =>
          refine .inr ⟨f, by rw [happly], fun found => ?_⟩
          simp only [stageAt, hstage]

/-- Loading a list of elements is entering them one after another. -/
theorem Level.loadElements_cases (h : Level p draft s) (kind : String) (i : Nat)
    (decode : Json → Schema.Decoded α) (adds : ∀ a m, mutation? a = some m → Draft.Adds m)
    (items : List Json) :
    (∃ draft' s' entries, s.enterAll decode mutation? items = .ok (s', entries) ∧
      Level p draft' s' ∧
      ∀ found, (items.zipIdx i).foldlM (loadElement p kind decode mutation?) (draft, found) =
        .ok (draft', found ++ Entry.violationsFrom kind i entries)) ∨
    ∃ f, s.enterAll decode mutation? items = .error f ∧
      ∀ found, (items.zipIdx i).foldlM (loadElement p kind decode mutation?) (draft, found) =
        .error f := by
  induction items generalizing draft s i with
  | nil => exact .inl ⟨draft, s, [], rfl, h, fun found => by simp [Entry.violationsFrom, pure_eq_ok]⟩
  | cons item rest ih =>
    simp only [List.zipIdx_cons, List.foldlM_cons, Store.enterAll]
    obtain ⟨mid, s', entry, henter, hlevel, hload⟩ | ⟨f, henter, hload⟩ :=
      h.loadElement_cases kind i decode adds item
    · rw [henter]
      obtain ⟨last, s'', entries, henters, hlast, hloads⟩ | ⟨f, henters, hloads⟩ :=
        ih hlevel (i + 1)
      · refine .inl ⟨last, s'', entry :: entries, by rw [ok_bind, henters]; rfl, hlast, ?_⟩
        intro found
        rw [hload, ok_bind, hloads, List.append_assoc]
        rfl
      · refine .inr ⟨f, by rw [ok_bind, henters]; rfl, fun found => ?_⟩
        rw [hload, ok_bind, hloads]
    · refine .inr ⟨f, by rw [henter]; rfl, fun found => ?_⟩
      rw [hload]
      rfl

end Entering

section Reports

variable {α : Type} {s s' : Store} {entries : List Entry} {kind : String} {first i : Nat}
  {decode : Json → Schema.Decoded α} {mutation? : α → Option Mutation} {items : List Json}

/-- An element that could not be read is entered with the reasons. -/
theorem told_of_enterAll (explains : Schema.Explains decode)
    (h : s.enterAll decode mutation? items = .ok (s', entries)) :
    ∀ entry ∈ entries, entry ≠ .unread [] := by
  induction items generalizing s s' entries with
  | nil =>
    have hnil : entries = [] := (Prod.mk.inj (Except.ok.inj h)).2.symm
    simp [hnil]
  | cons item rest ih =>
    obtain ⟨⟨mid, entry⟩, henter, h⟩ := bind_eq_ok.mp h
    obtain ⟨⟨last, others⟩, hrest, h⟩ := bind_eq_ok.mp h
    obtain rfl : entry :: others = entries := (Prod.mk.inj (Except.ok.inj h)).2
    refine List.forall_mem_cons.mpr ⟨?_, ih hrest⟩
    rintro rfl
    unfold Store.enter at henter
    split at henter
    next issues hread =>
      have hnil : issues = [] := Entry.unread.inj (Prod.mk.inj (Except.ok.inj henter)).2
      exact explains item (hnil ▸ hread)
    next =>
      split at henter
      · exact nomatch henter
      · split at henter <;> exact nomatch henter

theorem Entry.violations_eq_nil_iff {entry : Entry} (told : entry ≠ .unread []) :
    entry.violations kind i = [] ↔ entry.Accepted := by
  cases entry with
  | unread issues =>
    have hsome : issues ≠ [] := fun hnil => told (congrArg Entry.unread hnil)
    simpa [violations, Accepted] using hsome
  | _ => simp [violations, Accepted]

theorem Entry.violationsFrom_eq_nil_iff (told : ∀ entry ∈ entries, entry ≠ .unread []) :
    Entry.violationsFrom kind first entries = [] ↔ ∀ entry ∈ entries, entry.Accepted := by
  unfold violationsFrom
  induction entries generalizing first with
  | nil => simp
  | cons entry rest ih =>
    obtain ⟨hentry, hrest⟩ := List.forall_mem_cons.mp told
    rw [List.zipIdx_cons, List.flatMap_cons, List.append_eq_nil_iff, ih hrest,
      violations_eq_nil_iff hentry, List.forall_mem_cons]

/-- A violation of an element is found at the place of the element or at a part of it. -/
def Under (kind : String) (i : Nat) (path : String) : Prop :=
  path = s!"{kind}.{i}" ∨ ∃ part, path = s!"{kind}.{i}." ++ part

theorem under_pathText (path : List Schema.Step) :
    Under kind i (Schema.pathText (.key kind :: .index i :: path)) := by
  unfold Schema.pathText
  rw [List.map_cons, List.map_cons, String.intercalate_cons_cons]
  cases path.map Schema.Step.text with
  | nil =>
    rw [String.intercalate_singleton]
    exact .inl rfl
  | cons step rest =>
    rw [String.intercalate_cons_cons]
    refine .inr ⟨".".intercalate (step :: rest), ?_⟩
    change kind ++ "." ++ (toString i ++ "." ++ _) = kind ++ "." ++ toString i ++ "." ++ _
    simp only [String.append_assoc]

theorem Entry.under_of_mem_violations {entry : Entry} {v : Violation}
    (h : v ∈ entry.violations kind i) : ¬ entry.Accepted ∧ Under kind i v.path := by
  cases entry with
  | unread issues =>
    obtain ⟨issue, _, rfl⟩ := List.mem_map.mp h
    exact ⟨id, under_pathText issue.path⟩
  | refused r =>
    obtain rfl := List.mem_singleton.mp h
    exact ⟨id, .inl rfl⟩
  | passedOver => exact nomatch h
  | taken => exact nomatch h

theorem Entry.under_of_mem_violationsFrom {v : Violation}
    (h : v ∈ violationsFrom kind 0 entries) :
    ∃ i entry, entries[i]? = some entry ∧ ¬ entry.Accepted ∧ Under kind i v.path := by
  obtain ⟨⟨entry, i⟩, hentry, hv⟩ := List.mem_flatMap.mp h
  exact ⟨i, entry, List.mem_zipIdx_iff_getElem?.mp hentry, under_of_mem_violations hv⟩

end Reports

/-- The metadata is left out, or it is an object that names no other preset. -/
def NamesPreset (p : Preset) (fields : List (String × Json)) : Prop :=
  ∀ v, Entries.get? "metadata" fields = some v → ∃ metadata, v = .obj metadata ∧
    ∀ declared, Entries.get? "presetId" metadata = some declared → declared.same (.str p.id) = true

theorem NamesPreset.unobjected {p : Preset} {fields : List (String × Json)}
    (h : NamesPreset p fields) : (metadataFields fields).2 = [] ∧
      presetMismatch p (metadataFields fields).1 = [] := by
  unfold metadataFields
  cases hmetadata : Entries.get? "metadata" fields with
  | none => exact ⟨rfl, rfl⟩
  | some v =>
    obtain ⟨metadata, rfl, hnames⟩ := h v hmetadata
    refine ⟨rfl, ?_⟩
    unfold presetMismatch
    cases hdeclared : Entries.get? "presetId" metadata with
    | none => rfl
    | some declared => exact if_pos (hnames declared hdeclared)

theorem adds_of_node (n : Node) (m : Mutation) (h : (some ∘ Mutation.addNode) n = some m) :
    Draft.Adds m :=
  Option.some.inj h ▸ .node n

theorem adds_of_authored (e : Edge) (m : Mutation) (h : authored? e = some m) : Draft.Adds m := by
  unfold authored? at h
  split at h
  · exact nomatch h
  · exact Option.some.inj h ▸ .edge e

section Document

variable {p : Preset} {fields : List (String × Json)} {nodes edges : List Json}
  {historyLimit : Option Int} {log : EventLog Notice} {s : Store}

/-- The elements of a document are loaded as they are entered, first the nodes and then the edges. -/
theorem Level.load_cases {draft : Draft} (h : Level p draft s) (names : NamesPreset p fields)
    (listed : elements fields "nodes" = (nodes, [])) (listed' : elements fields "edges" = (edges, []))
    (start : draft = .start (.blank p (titleOf (metadataFields fields).1))) :
    (∃ run, s.enterElements nodes edges = .ok run ∧
      (∀ e ∈ run.nodes ++ run.edges, e ≠ .unread []) ∧
      load p (.obj fields) = .ok (if run.violations.isEmpty then .ok run.store.document
        else .error run.violations)) ∨
    ∃ f, s.enterElements nodes edges = .error f ∧ load p (.obj fields) = .error f := by
  obtain ⟨hobject, hmismatch⟩ := names.unobjected
  have hload : load p (.obj fields) = (do
      let state ← nodes.zipIdx.foldlM (loadElement p "nodes" Node.decode (some ∘ .addNode))
        (draft, [])
      let final ← edges.zipIdx.foldlM (loadElement p "edges" Edge.decode authored?) state
      return if final.2.isEmpty then .ok final.1.result else .error final.2) := by
    unfold load
    simp only [listed, listed', hobject, hmismatch, List.append_nil, start]
  rw [hload]
  unfold Store.enterElements
  obtain ⟨mid, s₁, entered, hnodes, hmid, hloadNodes⟩ | ⟨f, hnodes, hloadNodes⟩ :=
    h.loadElements_cases "nodes" 0 Node.decode adds_of_node nodes
  · obtain ⟨last, s₂, entered', hedges, hlast, hloadEdges⟩ | ⟨f, hedges, hloadEdges⟩ :=
      hmid.loadElements_cases "edges" 0 Edge.decode adds_of_authored edges
    · refine .inl ⟨⟨s₂, entered, entered'⟩, ?_, ?_, ?_⟩
      · simp only [hnodes, ok_bind, hedges]
        rfl
      · intro e he
        rcases List.mem_append.mp he with hnode | hedge
        · exact told_of_enterAll Schema.Explains.node hnodes e hnode
        · exact told_of_enterAll Schema.Explains.edge hedges e hedge
      · simp only [hloadNodes, ok_bind, hloadEdges, hlast.recorded.result_eq, hlast.same]
        rfl
    · refine .inr ⟨f, ?_, ?_⟩
      · simp only [hnodes, ok_bind, hedges]
        rfl
      · simp only [hloadNodes, ok_bind, hloadEdges]
        rfl
  · refine .inr ⟨f, ?_, ?_⟩
    · rw [hnodes]
      rfl
    · rw [hloadNodes]
      rfl

/-- Loading a document that names no other preset, and lists its elements, is entering the elements
by hand in a new store of the same title. A check that is torn tears both. Otherwise the document is
loaded just when every element is accepted, and then it is the one of the store; and if not, the
report says of each element that failed, in their order and at its place, what was said of it when it
was entered. -/
theorem load_eq_entering (names : NamesPreset p fields)
    (listed : elements fields "nodes" = (nodes, [])) (listed' : elements fields "edges" = (edges, []))
    (created : Store.create p (.blank p (titleOf (metadataFields fields).1)) historyLimit log =
      .ok s) :
    (∀ f, s.enterElements nodes edges = .error f → load p (.obj fields) = .error f) ∧
    ∀ run, s.enterElements nodes edges = .ok run →
      ((∃ d, load p (.obj fields) = .ok (.ok d)) ↔ ∀ e ∈ run.nodes ++ run.edges, e.Accepted) ∧
      ((∀ e ∈ run.nodes ++ run.edges, e.Accepted) →
        load p (.obj fields) = .ok (.ok run.store.document)) ∧
      (¬ (∀ e ∈ run.nodes ++ run.edges, e.Accepted) →
        load p (.obj fields) = .ok (.error run.violations)) ∧
      ∀ v ∈ run.violations,
        (∃ i e, run.nodes[i]? = some e ∧ ¬ e.Accepted ∧ Under "nodes" i v.path) ∨
        ∃ i e, run.edges[i]? = some e ∧ ¬ e.Accepted ∧ Under "edges" i v.path := by
  obtain ⟨hpreset, hdocument, _, _⟩ := Store.of_create created
  have hlevel : Level p (.start (.blank p (titleOf (metadataFields fields).1))) s :=
    ⟨Draft.recorded_start _, hdocument.symm, hpreset⟩
  obtain ⟨run, hrun, htold, hload⟩ | ⟨f, hrun, hload⟩ := hlevel.load_cases names listed listed' rfl
  · refine ⟨fun f hf => (nomatch hrun.symm.trans hf), fun run' hrun' => ?_⟩
    obtain rfl := Except.ok.inj (hrun.symm.trans hrun')
    -- there is something to report just when an element failed
    have hclean : run.violations.isEmpty = true ↔ ∀ e ∈ run.nodes ++ run.edges, e.Accepted := by
      obtain ⟨hnodes, hedges⟩ := List.forall_mem_append.mp htold
      unfold Store.Entered.violations
      rw [List.isEmpty_iff, List.append_eq_nil_iff, Entry.violationsFrom_eq_nil_iff hnodes,
        Entry.violationsFrom_eq_nil_iff hedges, List.forall_mem_append]
    have hloaded : (∀ e ∈ run.nodes ++ run.edges, e.Accepted) →
        load p (.obj fields) = .ok (.ok run.store.document) :=
      fun hall => by rw [hload, if_pos (hclean.mpr hall)]
    have hreported : ¬ (∀ e ∈ run.nodes ++ run.edges, e.Accepted) →
        load p (.obj fields) = .ok (.error run.violations) :=
      fun hsome => by rw [hload, if_neg (fun hempty => hsome (hclean.mp hempty))]
    refine ⟨⟨?_, fun hall => ⟨_, hloaded hall⟩⟩, hloaded, hreported, ?_⟩
    · rintro ⟨d, hd⟩
      exact Classical.byContradiction fun hsome => nomatch hd.symm.trans (hreported hsome)
    · intro v hv
      exact (List.mem_append.mp hv).imp Entry.under_of_mem_violationsFrom
        Entry.under_of_mem_violationsFrom
  · exact ⟨fun f' hf' => Except.error.inj (hrun.symm.trans hf') ▸ hload,
      fun run hrun' => nomatch hrun.symm.trans hrun'⟩

end Document

section Example

def cloud (id : String) : Json := .obj [("id", .str id), ("typeId", .str "cloud")]

def connection (id target : String) (inferred : Bool) : Json :=
  .obj [("id", .str id), ("typeId", .str "connects"), ("source", .str "a"), ("target", .str target),
    ("inferred", .bool inferred)]

/-- Two nodes, with an item that is no object and a repeated id between them. -/
def patchyNodes : List Json := [cloud "a", .int 3, cloud "a", cloud "b"]

/-- An edge that is passed over, one that is taken, and one that leads nowhere. -/
def patchyEdges : List Json :=
  [connection "e" "b" true, connection "f" "b" false, connection "g" "c" false]

/-- A document lists elements of which some fail. -/
def patchyFields : List (String × Json) :=
  [("metadata", .obj [("presetId", .str "topo"), ("title", .str "Patchy")]),
    ("nodes", .arr patchyNodes), ("edges", .arr patchyEdges)]

/-- A new store of the title of that document. -/
def patchyStore : Store :=
  { preset := Library.topology, document := .blank Library.topology "Patchy"
    history := { limit := 100, limit_pos := by decide }, log := { limit := 5 } }

/-- What comes of entering the elements: where something is reported, and what is in the store. -/
theorem patchyStore_enters : (patchyStore.enterElements patchyNodes patchyEdges).toOption.map
    (fun run => (run.violations.map Violation.path, run.store.document.nodes.keys,
      run.store.document.edges.keys)) =
    some (["nodes.1", "nodes.2", "edges.2"], ["a", "b"], ["f"]) := by
  decide

theorem patchyFields_names : NamesPreset Library.topology patchyFields := by
  intro v hv
  obtain rfl := Option.some.inj hv
  refine ⟨_, rfl, fun declared hdeclared => ?_⟩
  obtain rfl := Option.some.inj hdeclared
  rfl

end Example

/-- Loading goes on after each of the three elements that fail, and reports them at their places. -/
theorem load_eq_entering_patchy :
    NamesPreset Library.topology patchyFields ∧
      elements patchyFields "nodes" = (patchyNodes, []) ∧
      elements patchyFields "edges" = (patchyEdges, []) ∧
      Store.create Library.topology (.blank Library.topology "Patchy") none { limit := 5 } =
        .ok patchyStore ∧
      ∃ run, patchyStore.enterElements patchyNodes patchyEdges = .ok run ∧
        load Library.topology (.obj patchyFields) = .ok (.error run.violations) ∧
        run.violations.map Violation.path = ["nodes.1", "nodes.2", "edges.2"] ∧
        run.store.document.nodes.keys = ["a", "b"] ∧ run.store.document.edges.keys = ["f"] := by
  have created : Store.create Library.topology (.blank Library.topology "Patchy") none
      { limit := 5 } = .ok patchyStore := rfl
  have hentered := patchyStore_enters
  obtain ⟨run, hrun⟩ : ∃ run, patchyStore.enterElements patchyNodes patchyEdges = .ok run := by
    cases h : patchyStore.enterElements patchyNodes patchyEdges with
    | error f => simp [h, Except.toOption] at hentered
    | ok run => exact ⟨run, rfl⟩
  rw [hrun] at hentered
  obtain ⟨hpaths, hkeys⟩ := Prod.mk.inj (Option.some.inj hentered)
  obtain ⟨hnodes, hedges⟩ := Prod.mk.inj hkeys
  obtain ⟨_, hall⟩ := load_eq_entering patchyFields_names rfl rfl created
  obtain ⟨_, _, hreported, hplaces⟩ := hall run hrun
  -- there is a violation, and it is at the place of an element that failed
  have hfailed : ¬ ∀ e ∈ run.nodes ++ run.edges, e.Accepted := by
    intro haccepted
    have hsome : run.violations ≠ [] := fun hnil => by simp [hnil] at hpaths
    obtain ⟨v, hv⟩ := List.exists_mem_of_ne_nil _ hsome
    obtain ⟨i, e, he, hfailed, _⟩ | ⟨i, e, he, hfailed, _⟩ := hplaces v hv
    · exact hfailed (haccepted e (List.mem_append_left _ (List.mem_of_getElem? he)))
    · exact hfailed (haccepted e (List.mem_append_right _ (List.mem_of_getElem? he)))
  exact ⟨patchyFields_names, rfl, rfl, created, run, hrun, hreported hfailed, hpaths, hnodes, hedges⟩

end Exchange

end GraphWorkbench
