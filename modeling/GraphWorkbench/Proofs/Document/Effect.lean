import GraphWorkbench.Proofs.Document.Acceptance
import GraphWorkbench.Proofs.Document.Recording
/-!
What accepted mutations do. `Effect` says it for each mutation that is no batch, with the checks
that were passed; a batch does what its steps do, one after the other. What all effects preserve
is therefore preserved by every mutation, however deep its batches are nested.
-/
namespace GraphWorkbench

open Outcome Draft

/-- A node after an update. -/
def Node.revised (n : Node) (changes : Table Json) (removed : List String)
    (position : Option Position) : Node :=
  { n with properties := amended n.properties changes removed
           position := position.getD n.position }

/-- Whether an update comes to anything, by value. -/
def Node.isRevised (n : Node) (changes : Table Json) (removed : List String)
    (position : Option Position) : Bool :=
  (match position with
    | some q => !q.equal n.position
    | none => false) || isAmended n.properties changes removed

/-- An edge after an update. -/
def Edge.revised (e : Edge) (changes : Table Json) (removed : List String) : Edge :=
  { e with properties := amended e.properties changes removed }

/-- What a mutation that is no batch does to a document when it is accepted, with all that was asked
of it. An update writes to the key that the element goes by. -/
inductive Effect (p : Preset) (d : Document) : Mutation → Document → Prop
  | addNode {n : Node} (fresh : d.nodes.has n.id = false)
      (room : d.nodes.size < p.behavior.maxNodes) (checked : p.checkNode n = .ok ()) :
      Effect p d (.addNode n) { d with nodes := d.nodes.put n.id n }
  | keepNode {id : String} {changes : Table Json} {removed : List String}
      {position : Option Position} {n : Node} (found : d.nodes.get? id = some n)
      (same : n.isRevised changes removed position = false) :
      Effect p d (.updateNode id changes removed position) d
  | updateNode {id : String} {changes : Table Json} {removed : List String}
      {position : Option Position} {n : Node} (found : d.nodes.get? id = some n)
      (differs : n.isRevised changes removed position = true)
      (checked : p.checkNode (n.revised changes removed position) = .ok ())
      (present : d.nodes.has n.id = true) :
      Effect p d (.updateNode id changes removed position)
        { d with nodes := d.nodes.put n.id (n.revised changes removed position) }
  | removeNode {id : String} (present : d.nodes.has id = true) :
      Effect p d (.removeNode id)
        { d with nodes := d.nodes.erase id, edges := d.edges.without (·.touches id) }
  | addEdge {e : Edge} (authored : e.inferred = false) (fresh : d.edges.has e.id = false)
      (room : d.edges.size < p.behavior.maxEdges)
      (checked : p.checkEdge d.nodes d.edges e = .ok ()) :
      Effect p d (.addEdge e) { d with edges := d.edges.put e.id e }
  | keepEdge {id : String} {changes : Table Json} {removed : List String} {e : Edge}
      (found : d.edges.get? id = some e) (same : isAmended e.properties changes removed = false) :
      Effect p d (.updateEdge id changes removed) d
  | updateEdge {id : String} {changes : Table Json} {removed : List String} {e : Edge}
      {r : Relationship} (found : d.edges.get? id = some e)
      (differs : isAmended e.properties changes removed = true)
      (ruled : p.ruling? e.typeId = some r)
      (checked : checkProperties e.id r.properties [] (e.revised changes removed).properties = .ok ())
      (present : d.edges.has e.id = true) :
      Effect p d (.updateEdge id changes removed)
        { d with edges := d.edges.put e.id (e.revised changes removed) }
  | removeEdge {id : String} (present : d.edges.has id = true) :
      Effect p d (.removeEdge id) { d with edges := d.edges.erase id }

namespace Draft

variable {p : Preset} {d d' : Draft} {id : String} {n : Node} {e : Edge} {changes : Table Json}
  {removed : List String} {position : Option Position}

/-- An accepted change: it is on record, and its effect is the one of the mutation. -/
structure Accepted (p : Preset) (d : Draft) (m : Mutation) (d' : Draft) : Prop where
  extends_by : ∃ changes, Extends d changes d'
  effect : Effect p d.working m d'.working

theorem accepted_push {m : Mutation} {c : ElementChange} {working : Document}
    (leads : c.Leads d.working working) (effect : Effect p d.working m working) :
    Accepted p d m (d.push c working) :=
  ⟨⟨[c], .push leads⟩, effect⟩

theorem addNode_accepted (h : d.addNode p n = .ok d') : Accepted p d (.addNode n) d' := by
  unfold addNode at h
  cases fresh : d.working.nodes.has n.id with
  | true => simp [fresh, throw_bind] at h
  | false =>
    simp only [fresh, Bool.false_eq_true, if_false, bind_eq_ok, Preset.checkNodeRoom_eq_ok,
      ofFault_eq_ok] at h
    obtain ⟨_, room, _, checked, h⟩ := h
    rw [insertNode_eq fresh, Except.ok.injEq] at h
    subst h
    exact accepted_push (.node (Change.leads_put_new fresh)) (.addNode fresh room checked)

theorem addEdge_accepted (h : d.addEdge p e = .ok d') : Accepted p d (.addEdge e) d' := by
  unfold addEdge at h
  cases authored : e.inferred with
  | true => simp [authored, throw_bind] at h
  | false =>
  cases fresh : d.working.edges.has e.id with
  | true => simp [authored, fresh, throw_bind] at h
  | false =>
    simp only [authored, fresh, Bool.false_eq_true, if_false, bind_eq_ok, Preset.checkEdgeRoom_eq_ok,
      ofFault_eq_ok] at h
    obtain ⟨_, room, _, checked, h⟩ := h
    rw [insertEdge_eq fresh, Except.ok.injEq] at h
    subst h
    exact accepted_push (.edge (Change.leads_put_new fresh)) (.addEdge authored fresh room checked)

/-- A replacement that meets no fault finds its key. -/
theorem replaceNode_accepted (h : d.replaceNode id n = .ok d') :
    ∃ c, c.Leads d.working { d.working with nodes := d.working.nodes.put id n } ∧
      d' = d.push c { d.working with nodes := d.working.nodes.put id n } ∧
      d.working.nodes.has id = true := by
  cases found : d.working.nodes.get? id with
  | none => simp [replaceNode, entry_eq_error found, bind, Except.bind] at h
  | some old =>
    obtain ⟨before, after, he⟩ := Table.exists_at found
    rw [replaceNode_at he, Except.ok.injEq] at h
    exact ⟨_, .node (Change.leads_put_at he), h.symm, Table.has_of_at he⟩

theorem replaceEdge_accepted (h : d.replaceEdge id e = .ok d') :
    ∃ c, c.Leads d.working { d.working with edges := d.working.edges.put id e } ∧
      d' = d.push c { d.working with edges := d.working.edges.put id e } ∧
      d.working.edges.has id = true := by
  cases found : d.working.edges.get? id with
  | none => simp [replaceEdge, entry_eq_error found, bind, Except.bind] at h
  | some old =>
    obtain ⟨before, after, he⟩ := Table.exists_at found
    rw [replaceEdge_at he, Except.ok.injEq] at h
    exact ⟨_, .edge (Change.leads_put_at he), h.symm, Table.has_of_at he⟩

theorem updateNode_of_found (found : d.working.nodes.get? id = some n) :
    d.updateNode p id changes removed position =
      if n.isRevised changes removed position then do
        p.checkNode (n.revised changes removed position)
        Stop.ofFault (d.replaceNode n.id (n.revised changes removed position))
      else .ok d := by
  unfold updateNode Node.isRevised Node.revised
  simp only [found]
  cases isAmended n.properties changes removed with
  | true => simp
  | false =>
    cases position with
    | none => simp [pure_eq_ok]
    | some q => cases hq : q.equal n.position <;> simp [hq, pure_eq_ok]

/-- An update that is accepted finds its node, and either comes to nothing or is checked and written.
-/
theorem updateNode_cases (h : d.updateNode p id changes removed position = .ok d') :
    ∃ n, d.working.nodes.get? id = some n ∧
      ((n.isRevised changes removed position = false ∧ d' = d) ∨
        (n.isRevised changes removed position = true ∧
          p.checkNode (n.revised changes removed position) = .ok () ∧
          d.replaceNode n.id (n.revised changes removed position) = .ok d')) := by
  cases found : d.working.nodes.get? id with
  | none => simp [updateNode, found, throw, throwThe, MonadExceptOf.throw] at h
  | some n =>
    rw [updateNode_of_found found] at h
    refine ⟨n, rfl, ?_⟩
    cases differs : n.isRevised changes removed position with
    | false =>
      simp only [differs, Bool.false_eq_true, if_false, Except.ok.injEq] at h
      exact .inl ⟨rfl, h.symm⟩
    | true =>
      simp only [differs, if_true, bind_eq_ok, ofFault_eq_ok] at h
      obtain ⟨_, checked, h⟩ := h
      exact .inr ⟨rfl, checked, h⟩

theorem updateNode_accepted (h : d.updateNode p id changes removed position = .ok d') :
    Accepted p d (.updateNode id changes removed position) d' := by
  obtain ⟨n, found, ⟨same, rfl⟩ | ⟨differs, checked, h⟩⟩ := updateNode_cases h
  · exact ⟨⟨[], .refl d'⟩, .keepNode found same⟩
  · obtain ⟨c, leads, rfl, present⟩ := replaceNode_accepted h
    exact accepted_push leads (.updateNode found differs checked present)

theorem updateEdge_of_found (found : d.working.edges.get? id = some e) :
    d.updateEdge p id changes removed =
      if isAmended e.properties changes removed then do
        let r ← p.relationshipOf e
        checkProperties e.id r.properties [] (e.revised changes removed).properties
        Stop.ofFault (d.replaceEdge e.id (e.revised changes removed))
      else .ok d := by
  unfold updateEdge Edge.revised
  simp only [found]
  cases isAmended e.properties changes removed <;> rfl

theorem updateEdge_cases (h : d.updateEdge p id changes removed = .ok d') :
    ∃ e, d.working.edges.get? id = some e ∧
      ((isAmended e.properties changes removed = false ∧ d' = d) ∨
        (isAmended e.properties changes removed = true ∧ ∃ r, p.ruling? e.typeId = some r ∧
          checkProperties e.id r.properties [] (e.revised changes removed).properties = .ok () ∧
          d.replaceEdge e.id (e.revised changes removed) = .ok d')) := by
  cases found : d.working.edges.get? id with
  | none => simp [updateEdge, found, throw, throwThe, MonadExceptOf.throw] at h
  | some e =>
    rw [updateEdge_of_found found] at h
    refine ⟨e, rfl, ?_⟩
    cases differs : isAmended e.properties changes removed with
    | false =>
      simp only [differs, Bool.false_eq_true, if_false, Except.ok.injEq] at h
      exact .inl ⟨rfl, h.symm⟩
    | true =>
      simp only [differs, if_true, bind_eq_ok, ofFault_eq_ok, Preset.relationshipOf_eq_ok] at h
      obtain ⟨r, ruled, _, checked, h⟩ := h
      exact .inr ⟨rfl, r, ruled, checked, h⟩

theorem updateEdge_accepted (h : d.updateEdge p id changes removed = .ok d') :
    Accepted p d (.updateEdge id changes removed) d' := by
  obtain ⟨e, found, ⟨same, rfl⟩ | ⟨differs, r, ruled, checked, h⟩⟩ := updateEdge_cases h
  · exact ⟨⟨[], .refl d'⟩, .keepEdge found same⟩
  · obtain ⟨c, leads, rfl, present⟩ := replaceEdge_accepted h
    exact accepted_push leads (.updateEdge found differs ruled checked present)

/-- The removals of the edges at a node, in their order, after some edges that stay. Each edge is
named by the number of edges before it that stay, since the others before it are gone by then. -/
def cascade (id : String) (staying : Nat) : List (String × Edge) → Patch
  | [] => []
  | (k, e) :: rest =>
    if e.touches id then .edge (.delete k staying e) :: cascade id staying rest
    else cascade id (staying + 1) rest

/-- The edges at a node are removed one by one without a fault. -/
theorem deleteEdges_cascade {staying rest : List (String × Edge)}
    (h : d.working.edges.entries = staying ++ rest)
    (apart : ∀ entry ∈ staying, entry.2.touches id = false) :
    ∃ d', d.deleteEdges (Entries.keys (rest.filter fun e => e.2.touches id)) = .ok d' ∧
      Extends d (cascade id staying.length rest) d' ∧
      d'.working = { d.working with edges := d.working.edges.without (·.touches id) } := by
  -- by induction on the edges still to look at; those before them are known to stay
  induction rest generalizing d staying with
  | nil =>
    have hall : d.working.edges.without (·.touches id) = d.working.edges := by
      apply Table.ext
      apply List.filter_eq_self.mpr
      intro entry hentry
      rw [h, List.append_nil] at hentry
      simp [apart entry hentry]
    exact ⟨d, rfl, .refl d, by rw [hall]⟩
  | cons entry rest ih =>
    obtain ⟨k, e⟩ := entry
    cases htouches : e.touches id with
    | false =>
      -- this edge joins those that stay, and the removals after it are named one place further on
      have hsplit : d.working.edges.entries = (staying ++ [(k, e)]) ++ rest := by
        rw [h, List.append_assoc, List.singleton_append]
      have hapart : ∀ entry ∈ staying ++ [(k, e)], entry.2.touches id = false := by
        intro entry hentry
        rcases List.mem_append.mp hentry with hold | hnew
        · exact apart entry hold
        · rw [List.mem_singleton.mp hnew]
          exact htouches
      obtain ⟨d', hrun, hext, hwork⟩ := ih hsplit hapart
      refine ⟨d', ?_, ?_, hwork⟩
      · rwa [List.filter_cons_of_neg (by simp [htouches])]
      · rw [cascade, htouches]
        rwa [List.length_append] at hext
    | true =>
      let mid := d.push (.edge (.delete k staying.length e))
        { d.working with edges := d.working.edges.erase k }
      have hstep : d.deleteEdge k = .ok mid := deleteEdge_at h
      have hmid : Extends d [_] mid := .push (.edge (Change.leads_erase_at h))
      have hentries : mid.working.edges.entries = staying ++ rest := Table.entries_erase_at h
      obtain ⟨d', hrun, hext, hwork⟩ := ih hentries apart
      -- the edge that is gone would not have stayed
      have hwithout : mid.working.edges.without (·.touches id) =
          d.working.edges.without (·.touches id) := by
        apply Table.ext
        simp [Table.without, hentries, h, htouches]
      refine ⟨d', ?_, ?_, ?_⟩
      · rw [List.filter_cons_of_pos (by simpa using htouches)]
        change (d.deleteEdge k >>= fun d => d.deleteEdges _) = .ok d'
        rw [hstep]
        exact hrun
      · rw [cascade, htouches]
        exact hmid.trans hext
      · rw [hwork, hwithout]
        rfl

/-- A node that is there is removed without a stop, after the edges at it. -/
theorem removeNode_at {before after : List (String × Node)}
    (h : d.working.nodes.entries = before ++ (id, n) :: after) :
    ∃ d', d.removeNode id = .ok d' ∧
      Extends d (cascade id 0 d.working.edges.entries ++ [.node (.delete id before.length n)]) d' ∧
      d'.working = { d.working with nodes := d.working.nodes.erase id
                                    edges := d.working.edges.without (·.touches id) } := by
  have hstart : d.working.edges.entries = [] ++ d.working.edges.entries := rfl
  have hapart : ∀ entry ∈ ([] : List (String × Edge)), entry.2.touches id = false := by simp
  obtain ⟨mid, hrun, hext, hwork⟩ := deleteEdges_cascade hstart hapart
  have hnodes : mid.working.nodes.entries = before ++ (id, n) :: after := by rw [hwork]; exact h
  refine ⟨_, ?_, hext.trans (.push (.node (Change.leads_erase_at hnodes))), ?_⟩
  · unfold removeNode
    rw [Table.has_of_at h]
    change (Stop.ofFault (d.deleteEdges _) >>= fun mid => Stop.ofFault (mid.deleteNode id)) = _
    rw [hrun]
    exact congrArg Stop.ofFault (deleteNode_at hnodes)
  · change { mid.working with nodes := mid.working.nodes.erase id } = _
    rw [hwork]

theorem removeNode_of_present (present : d.working.nodes.has id = true) :
    ∃ d', d.removeNode id = .ok d' ∧ Accepted p d (.removeNode id) d' := by
  obtain ⟨n, found⟩ := Table.has_iff_exists.mp present
  obtain ⟨before, after, he⟩ := Table.exists_at found
  obtain ⟨d', hrun, hext, hwork⟩ := removeNode_at he
  refine ⟨d', hrun, ⟨_, hext⟩, ?_⟩
  rw [hwork]
  exact .removeNode present

theorem removeNode_accepted (h : d.removeNode id = .ok d') :
    Accepted p d (.removeNode id) d' := by
  cases present : d.working.nodes.has id with
  | false => simp [removeNode, present, throw_bind] at h
  | true =>
    obtain ⟨after, hafter, accepted⟩ := removeNode_of_present (p := p) present
    rwa [Except.ok.inj (h.symm.trans hafter)]

/-- An edge that is there is removed without a stop. -/
theorem removeEdge_at {before after : List (String × Edge)}
    (h : d.working.edges.entries = before ++ (id, e) :: after) :
    d.removeEdge id = .ok (d.push (.edge (.delete id before.length e))
      { d.working with edges := d.working.edges.erase id }) := by
  unfold removeEdge
  rw [Table.has_of_at h]
  exact congrArg Stop.ofFault (deleteEdge_at h)

theorem removeEdge_of_present (present : d.working.edges.has id = true) :
    ∃ d', d.removeEdge id = .ok d' ∧ Accepted p d (.removeEdge id) d' := by
  obtain ⟨e, found⟩ := Table.has_iff_exists.mp present
  obtain ⟨before, after, he⟩ := Table.exists_at found
  exact ⟨_, removeEdge_at he,
    accepted_push (.edge (Change.leads_erase_at he)) (.removeEdge present)⟩

theorem removeEdge_accepted (h : d.removeEdge id = .ok d') :
    Accepted p d (.removeEdge id) d' := by
  cases present : d.working.edges.has id with
  | false => simp [removeEdge, present, throw_bind] at h
  | true =>
    obtain ⟨after, hafter, accepted⟩ := removeEdge_of_present (p := p) present
    rwa [Except.ok.inj (h.symm.trans hafter)]

/-- A single change either is accepted or leaves the draft as it is. -/
theorem attempt_cases {m : Mutation} {r : Except Stop Draft} {outcome : Option Stop}
    (h : d.attempt r = (d', outcome)) (accepted : ∀ d', r = .ok d' → Accepted p d m d') :
    (outcome = none ∧ Accepted p d m d') ∨ (outcome ≠ none ∧ d' = d) := by
  cases r with
  | ok next =>
    simp only [attempt, Prod.mk.injEq] at h
    obtain ⟨rfl, rfl⟩ := h
    exact .inl ⟨rfl, accepted _ rfl⟩
  | error stop =>
    simp only [attempt, Prod.mk.injEq] at h
    obtain ⟨rfl, rfl⟩ := h
    exact .inr ⟨by simp, rfl⟩

end Draft

/-- Whether a mutation is a batch. -/
def Mutation.isBatch : Mutation → Bool
  | .batch .. => true
  | _ => false

namespace Draft

variable {p : Preset} {d d' : Draft}

/-- A mutation that is no batch is accepted, or it is stopped and leaves the draft as it is. -/
theorem perform_single {m : Mutation} {outcome : Option Stop} (single : m.isBatch = false)
    (h : perform p d m = (d', outcome)) :
    (outcome = none ∧ Accepted p d m d') ∨ (outcome ≠ none ∧ d' = d) := by
  cases m with
  | addNode n => exact attempt_cases (by rwa [perform] at h) fun _ => addNode_accepted
  | updateNode id changes removed position =>
    exact attempt_cases (by rwa [perform] at h) fun _ => updateNode_accepted
  | removeNode id => exact attempt_cases (by rwa [perform] at h) fun _ => removeNode_accepted
  | addEdge e => exact attempt_cases (by rwa [perform] at h) fun _ => addEdge_accepted
  | updateEdge id changes removed =>
    exact attempt_cases (by rwa [perform] at h) fun _ => updateEdge_accepted
  | removeEdge id => exact attempt_cases (by rwa [perform] at h) fun _ => removeEdge_accepted
  | batch label steps => simp [Mutation.isBatch] at single

theorem accepted_of_perform {m : Mutation} (single : m.isBatch = false)
    (h : perform p d m = (d', none)) : Accepted p d m d' := by
  rcases perform_single single h with ⟨_, haccepted⟩ | ⟨hstop, _⟩
  · exact haccepted
  · exact absurd rfl hstop

end Draft

end GraphWorkbench
