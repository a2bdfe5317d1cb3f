import GraphWorkbench.Proofs.Document.Entering
import GraphWorkbench.Proofs.Document.Reachable
import GraphWorkbench.Proofs.Preset.Audit
import Mathlib.Data.List.Nodup
/-!
What the plan of a mutation is. `Planned` says for each mutation that is no batch which document
comes of it, entry by entry, and which changes are on record, each with its place; and every plan of
such a mutation is the one that it says.
-/
namespace GraphWorkbench

open Outcome

/-- Properties with changes written over them and some taken away. What is changed keeps its place,
what is new comes last. -/
structure Amends (old changes : Table Json) (removed : List String) (new : Table Json) : Prop where
  values : ∀ key, new.get? key =
    if key ∈ removed then none else (changes.get? key).or (old.get? key)
  keys : new.keys = (old.keys ++ changes.keys.filter (· ∉ old.keys)).filter (· ∉ removed)

namespace Amends

variable {old changes new new' : Table Json} {removed : List String}

theorem amended : Amends old changes removed (Draft.amended old changes removed) where
  values key := by rw [Draft.amended, Table.get?_foldl_erase, Table.get?_merge]
  keys := by
    rw [Draft.amended, Table.keys_foldl_erase]
    exact congrArg _ (Entries.keys_merge changes.nodup)

/-- There is one table that the properties can be amended to. -/
theorem unique (h : Amends old changes removed new) (h' : Amends old changes removed new') :
    new = new' :=
  Table.ext_get? (h.keys.trans h'.keys.symm) fun key => (h.values key).trans (h'.values key).symm

end Amends

/-- The same node by value, with these properties and at this position, if one is given. -/
def Node.Stays (n : Node) (properties : Table Json) (position : Option Position) : Prop :=
  n.properties.sameBy Json.same properties = true ∧
    ∀ q, position = some q → q.equal n.position = true

/-- The same edge by value, with these properties. -/
def Edge.Stays (e : Edge) (properties : Table Json) : Prop :=
  e.properties.sameBy Json.same properties = true

/-- An update that leaves its element the same by value. -/
def Mutation.Idle (d : Document) : Mutation → Prop
  | .updateNode id changes removed position => ∃ n properties, d.nodes.get? id = some n ∧
    Amends n.properties changes removed properties ∧ n.Stays properties position
  | .updateEdge id changes removed => ∃ e properties, d.edges.get? id = some e ∧
    Amends e.properties changes removed properties ∧ e.Stays properties
  | _ => False

/-- The changes that a mutation makes in a document, in their order and each with its place, and the
document after it. What is not named stays as it is and where it is. -/
inductive Planned (d : Document) : Mutation → Patch → Document → Prop
  | addNode {n : Node} {nodes : Table Node}
      (result : nodes.entries = d.nodes.entries ++ [(n.id, n)]) :
      Planned d (.addNode n) [.node (.insert n.id d.nodes.size n)] { d with nodes }
  | addEdge {e : Edge} {edges : Table Edge}
      (result : edges.entries = d.edges.entries ++ [(e.id, e)]) :
      Planned d (.addEdge e) [.edge (.insert e.id d.edges.size e)] { d with edges }
  | keep {m : Mutation} (idle : m.Idle d) : Planned d m [] d
  | updateNode {id : String} {changes : Table Json} {removed : List String}
      {position : Option Position} {old new : Node} {nodes : Table Node}
      {before after : List (String × Node)}
      (found : d.nodes.entries = before ++ (id, old) :: after)
      (amends : Amends old.properties changes removed new.properties)
      (moves : new.position = position.getD old.position)
      (rest : new.id = old.id ∧ new.typeId = old.typeId)
      (differs : ¬ old.Stays new.properties position)
      (result : nodes.entries = before ++ (id, new) :: after) :
      Planned d (.updateNode id changes removed position)
        [.node (.replace id before.length old new)] { d with nodes }
  | updateEdge {id : String} {changes : Table Json} {removed : List String} {old new : Edge}
      {edges : Table Edge} {before after : List (String × Edge)}
      (found : d.edges.entries = before ++ (id, old) :: after)
      (amends : Amends old.properties changes removed new.properties)
      (rest : new.id = old.id ∧ new.typeId = old.typeId ∧ new.source = old.source ∧
        new.target = old.target ∧ new.inferred = old.inferred)
      (differs : ¬ old.Stays new.properties)
      (result : edges.entries = before ++ (id, new) :: after) :
      Planned d (.updateEdge id changes removed)
        [.edge (.replace id before.length old new)] { d with edges }
  | removeNode {id : String} {n : Node} {nodes : Table Node} {edges : Table Edge}
      {before after : List (String × Node)}
      (found : d.nodes.entries = before ++ (id, n) :: after)
      (result : nodes.entries = before ++ after)
      (cut : edges.entries = d.edges.entries.filter fun entry => !entry.2.touches id) :
      Planned d (.removeNode id)
        (Draft.cascade id 0 d.edges.entries ++ [.node (.delete id before.length n)])
        { d with nodes, edges }
  | removeEdge {id : String} {e : Edge} {edges : Table Edge} {before after : List (String × Edge)}
      (found : d.edges.entries = before ++ (id, e) :: after)
      (result : edges.entries = before ++ after) :
      Planned d (.removeEdge id) [.edge (.delete id before.length e)] { d with edges }

/-- Which element a change is about. -/
def ElementChange.subject (c : ElementChange) : String × String := (c.target, c.key)

namespace Draft

variable {p : Preset} {d d' : Draft} {id : String} {n : Node} {e : Edge} {changes : Table Json}
  {removed : List String} {position : Option Position}

theorem subjects_cascade (staying : Nat) (entries : List (String × Edge)) :
    (cascade id staying entries).map ElementChange.subject =
      (entries.filter fun entry => entry.2.touches id).map fun entry => ("edge", entry.1) := by
  induction entries generalizing staying with
  | nil => rfl
  | cons entry rest ih =>
    obtain ⟨k, e⟩ := entry
    cases htouches : e.touches id with
    | true =>
      rw [cascade, htouches, List.filter_cons_of_pos (by simpa using htouches)]
      exact congrArg (List.cons _) (ih staying)
    | false =>
      rw [cascade, htouches, List.filter_cons_of_neg (by simp [htouches])]
      exact ih (staying + 1)

theorem isRevised_eq_false_iff : n.isRevised changes removed position = false ↔
    n.Stays (amended n.properties changes removed) position := by
  unfold Node.isRevised Node.Stays isAmended
  cases position <;> simp [and_comm]

theorem isAmended_eq_false_iff : isAmended e.properties changes removed = false ↔
    e.Stays (amended e.properties changes removed) := by
  simp [isAmended, Edge.Stays]

/-- A run that has put the changes on record that are planned for its working copy. -/
def Traced (d : Draft) (m : Mutation) (d' : Draft) : Prop :=
  ∃ patch, Extends d patch d' ∧ Planned d.working m patch d'.working

theorem addNode_traced (h : d.addNode p n = .ok d') : Traced d (.addNode n) d' := by
  rw [addNode_eq, bind_eq_ok] at h
  obtain ⟨_, hcheck, h⟩ := h
  have fresh := fresh_of_nodeCheck hcheck
  rw [ofFault_eq_ok, insertNode_eq fresh, Except.ok.injEq] at h
  subst h
  exact ⟨_, .push (.node (Change.leads_put_new fresh)), .addNode (Table.entries_put_new fresh)⟩

theorem addEdge_traced (h : d.addEdge p e = .ok d') : Traced d (.addEdge e) d' := by
  rw [addEdge_eq, bind_eq_ok] at h
  obtain ⟨_, hcheck, h⟩ := h
  have fresh := fresh_of_edgeCheck hcheck
  rw [ofFault_eq_ok, insertEdge_eq fresh, Except.ok.injEq] at h
  subst h
  exact ⟨_, .push (.edge (Change.leads_put_new fresh)), .addEdge (Table.entries_put_new fresh)⟩

theorem updateNode_traced (keys : ∀ entry ∈ d.working.nodes.entries, entry.2.id = entry.1)
    (h : d.updateNode p id changes removed position = .ok d') :
    Traced d (.updateNode id changes removed position) d' := by
  obtain ⟨n, found, ⟨same, rfl⟩ | ⟨differs, _, h⟩⟩ := updateNode_cases h
  · exact ⟨[], .refl d', .keep ⟨n, _, found, .amended, isRevised_eq_false_iff.mp same⟩⟩
  · obtain ⟨before, after, he⟩ := Table.exists_at found
    have hid : n.id = id := keys _ (Entries.mem_of_get? found)
    have hdiffers : ¬ n.Stays (amended n.properties changes removed) position := by
      rw [← isRevised_eq_false_iff, differs]
      exact Bool.noConfusion
    rw [hid, replaceNode_at he, Except.ok.injEq] at h
    subst h
    exact ⟨_, .push (.node (Change.leads_put_at he)),
      .updateNode he .amended rfl ⟨rfl, rfl⟩ hdiffers (Table.entries_put_at he)⟩

theorem updateEdge_traced (keys : ∀ entry ∈ d.working.edges.entries, entry.2.id = entry.1)
    (h : d.updateEdge p id changes removed = .ok d') :
    Traced d (.updateEdge id changes removed) d' := by
  obtain ⟨e, found, ⟨same, rfl⟩ | ⟨differs, _, _, _, h⟩⟩ := updateEdge_cases h
  · exact ⟨[], .refl d', .keep ⟨e, _, found, .amended, isAmended_eq_false_iff.mp same⟩⟩
  · obtain ⟨before, after, he⟩ := Table.exists_at found
    have hid : e.id = id := keys _ (Entries.mem_of_get? found)
    have hdiffers : ¬ e.Stays (amended e.properties changes removed) := by
      rw [← isAmended_eq_false_iff, differs]
      exact Bool.noConfusion
    rw [hid, replaceEdge_at he, Except.ok.injEq] at h
    subst h
    exact ⟨_, .push (.edge (Change.leads_put_at he)),
      .updateEdge he .amended ⟨rfl, rfl, rfl, rfl, rfl⟩ hdiffers (Table.entries_put_at he)⟩

theorem removeNode_traced (h : d.removeNode id = .ok d') : Traced d (.removeNode id) d' := by
  cases present : d.working.nodes.has id with
  | false => simp [removeNode, present, throw_bind] at h
  | true =>
    -- the edges at the node are gone before it, which leaves its own place as it was
    obtain ⟨n, found⟩ := Table.has_iff_exists.mp present
    obtain ⟨before, after, he⟩ := Table.exists_at found
    obtain ⟨d'', hrun, hext, hwork⟩ := removeNode_at he
    obtain rfl : d'' = d' := Except.ok.inj (hrun.symm.trans h)
    refine ⟨_, hext, ?_⟩
    rw [hwork]
    exact .removeNode he (Table.entries_erase_at he) rfl

theorem removeEdge_traced (h : d.removeEdge id = .ok d') : Traced d (.removeEdge id) d' := by
  cases present : d.working.edges.has id with
  | false => simp [removeEdge, present, throw_bind] at h
  | true =>
    obtain ⟨e, found⟩ := Table.has_iff_exists.mp present
    obtain ⟨before, after, he⟩ := Table.exists_at found
    obtain rfl : _ = d' := Except.ok.inj ((removeEdge_at he).symm.trans h)
    exact ⟨_, .push (.edge (Change.leads_erase_at he)),
      .removeEdge he (Table.entries_erase_at he)⟩

/-- A single change that went through is the run of its operation. -/
theorem eq_ok_of_attempt {r : Except Stop Draft} (h : d.attempt r = (d', none)) : r = .ok d' := by
  cases r with
  | ok next => simpa [attempt] using h
  | error stop => simp [attempt] at h

theorem traced_of_perform {m : Mutation} (hd : d.working.Conforms p) (single : m.isBatch = false)
    (h : perform p d m = (d', none)) : Traced d m d' := by
  cases m with
  | addNode n => exact addNode_traced (eq_ok_of_attempt (by rwa [perform] at h))
  | updateNode id changes removed position =>
    exact updateNode_traced hd.nodeKeys (eq_ok_of_attempt (by rwa [perform] at h))
  | removeNode id => exact removeNode_traced (eq_ok_of_attempt (by rwa [perform] at h))
  | addEdge e => exact addEdge_traced (eq_ok_of_attempt (by rwa [perform] at h))
  | updateEdge id changes removed =>
    exact updateEdge_traced hd.edgeKeys (eq_ok_of_attempt (by rwa [perform] at h))
  | removeEdge id => exact removeEdge_traced (eq_ok_of_attempt (by rwa [perform] at h))
  | batch label steps => simp [Mutation.isBatch] at single

end Draft

namespace Planned

variable {d d' : Document} {m : Mutation} {patch : Patch}

/-- Only an update that leaves its element the same by value makes no change. -/
theorem eq_nil_iff (h : Planned d m patch d') : patch = [] ↔ m.Idle d := by
  cases h with
  | keep idle => exact iff_of_true rfl idle
  | updateNode found amends _ _ differs _ =>
    -- an idle update would amend the same node to the same properties
    refine iff_of_false (List.cons_ne_nil _ _) ?_
    rintro ⟨n, properties, hn, hamends, stays⟩
    obtain rfl := Option.some.inj ((Table.get?_of_at found).symm.trans hn)
    exact differs (amends.unique hamends ▸ stays)
  | updateEdge found amends _ differs _ =>
    refine iff_of_false (List.cons_ne_nil _ _) ?_
    rintro ⟨e, properties, he, hamends, stays⟩
    obtain rfl := Option.some.inj ((Table.get?_of_at found).symm.trans he)
    exact differs (amends.unique hamends ▸ stays)
  | removeNode => exact iff_of_false (List.append_ne_nil_of_right_ne_nil _ (by simp)) id
  | _ => exact iff_of_false (List.cons_ne_nil _ _) id

theorem eq_of_idle (h : Planned d m patch d') (idle : m.Idle d) : patch = [] ∧ d' = d := by
  have hnil : patch = [] := h.eq_nil_iff.mpr idle
  cases h with
  | keep => exact ⟨rfl, rfl⟩
  | removeNode => simp at hnil
  | _ => exact absurd hnil (List.cons_ne_nil _ _)

/-- A mutation is planned in one way. -/
theorem unique {patch' : Patch} {d'' : Document} (h : Planned d m patch d')
    (h' : Planned d m patch' d'') : patch = patch' ∧ d' = d'' := by
  cases h with
  | keep idle =>
    obtain ⟨rfl, rfl⟩ := h'.eq_of_idle idle
    exact ⟨rfl, rfl⟩
  | addNode result =>
    cases h' with
    | keep idle => exact idle.elim
    | addNode result' =>
      obtain rfl := Table.ext (result.trans result'.symm)
      exact ⟨rfl, rfl⟩
  | addEdge result =>
    cases h' with
    | keep idle => exact idle.elim
    | addEdge result' =>
      obtain rfl := Table.ext (result.trans result'.symm)
      exact ⟨rfl, rfl⟩
  | @updateNode id changes removed position old new nodes before after found amends moves rest
      differs result =>
    have hplanned : Planned d (.updateNode id changes removed position) _ _ :=
      .updateNode found amends moves rest differs result
    cases h' with
    | keep idle => exact absurd (hplanned.eq_nil_iff.mpr idle) (List.cons_ne_nil _ _)
    | @updateNode _ _ _ _ old' new' _ _ _ found' amends' moves' rest' _ result' =>
      obtain ⟨rfl, rfl, rfl⟩ := Table.split_unique found found'
      -- all fields of the new node are given: two by the update, the others by the old node
      have hnew : new = new' := by
        have hproperties := amends.unique amends'
        have hposition := moves.trans moves'.symm
        have hid := rest.1.trans rest'.1.symm
        have htype := rest.2.trans rest'.2.symm
        cases new
        cases new'
        simp_all
      subst hnew
      obtain rfl := Table.ext (result.trans result'.symm)
      exact ⟨rfl, rfl⟩
  | @updateEdge id changes removed old new edges before after found amends rest differs result =>
    have hplanned : Planned d (.updateEdge id changes removed) _ _ :=
      .updateEdge found amends rest differs result
    cases h' with
    | keep idle => exact absurd (hplanned.eq_nil_iff.mpr idle) (List.cons_ne_nil _ _)
    | @updateEdge _ _ _ old' new' _ _ _ found' amends' rest' _ result' =>
      obtain ⟨rfl, rfl, rfl⟩ := Table.split_unique found found'
      have hnew : new = new' := by
        have hproperties := amends.unique amends'
        cases new
        cases new'
        simp_all
      subst hnew
      obtain rfl := Table.ext (result.trans result'.symm)
      exact ⟨rfl, rfl⟩
  | removeNode found result cut =>
    cases h' with
    | keep idle => exact idle.elim
    | removeNode found' result' cut' =>
      obtain ⟨rfl, rfl, rfl⟩ := Table.split_unique found found'
      obtain rfl := Table.ext (result.trans result'.symm)
      obtain rfl := Table.ext (cut.trans cut'.symm)
      exact ⟨rfl, rfl⟩
  | removeEdge found result =>
    cases h' with
    | keep idle => exact idle.elim
    | removeEdge found' result' =>
      obtain ⟨rfl, rfl, rfl⟩ := Table.split_unique found found'
      obtain rfl := Table.ext (result.trans result'.symm)
      exact ⟨rfl, rfl⟩

/-- No element is changed twice. -/
theorem nodup_subjects (h : Planned d m patch d') :
    (patch.map ElementChange.subject).Nodup := by
  cases h with
  | @removeNode id n _ _ before =>
    rw [List.map_append, Draft.subjects_cascade]
    have hedges : ((d.edges.entries.filter fun entry => entry.2.touches id).map fun entry =>
        ("edge", entry.1)).Nodup := by
      have hkeys : ((d.edges.entries.filter fun entry => entry.2.touches id).map Prod.fst).Nodup :=
        d.edges.nodup.sublist (List.filter_sublist.map Prod.fst)
      have hnamed : (((d.edges.entries.filter fun entry => entry.2.touches id).map Prod.fst).map
          (Prod.mk "edge")).Nodup := hkeys.map fun _ _ same => congrArg Prod.snd same
      rwa [List.map_map] at hnamed
    -- the node comes last, and is no edge
    refine List.nodup_append.mpr ⟨hedges, List.nodup_singleton _, ?_⟩
    intro subject hsubject other hother
    obtain ⟨entry, _, rfl⟩ := List.mem_map.mp hsubject
    rw [List.mem_singleton.mp hother]
    simp [ElementChange.subject, ElementChange.target]
  | keep => exact List.nodup_nil
  | _ => exact List.nodup_singleton _

end Planned

namespace Store

section Example

/-- A candidate in which hosts are linked in any number. -/
def linkedHosts : Json :=
  .obj [("id", .str "net"), ("name", .str "Net"), ("version", .str "2.0.0"),
    ("nodeTypes", .arr [.obj [("id", .str "host"), ("name", .str "Host"),
      ("style", .obj [("color", .str "#000000")])]]),
    ("relationships", .arr [.obj [("id", .str "link"), ("name", .str "Link"),
      ("sourceTypes", .arr [.str "host"]), ("targetTypes", .arr [.str "host"])]])]

def linkPreset : Preset :=
  { id := "net", name := "Net", version := "2.0.0"
    nodeTypes := [{ id := "host", name := "Host", style := { color := "#000000" } }]
    relationships := [{ id := "link", name := "Link", sourceTypes := ["host"]
                        targetTypes := ["host"] }] }

theorem linkedHosts_accepted : Audit.validate linkedHosts = .ok (.ok linkPreset) := by
  decide +kernel

/-- An edge whose id is made up of its ends. -/
def link (source target : String) : Edge :=
  { id := source ++ target, typeId := "link", source, target }

/-- Two hosts with every edge between them. -/
def knot : Store :=
  grown linkPreset [.addNode { id := "a", typeId := "host" }, .addNode { id := "b", typeId := "host" },
    .addEdge (link "a" "a"), .addEdge (link "a" "b"), .addEdge (link "b" "b"),
    .addEdge (link "b" "a")]

end Example

end Store

namespace Draft

/-- Every mutation that is accepted by a valid document and is no batch makes the changes that are
planned for it and no others, and leads to the one document that comes of them. There is no change
exactly for an update that leaves its element the same by value, and never two of one element. -/
theorem plan_planned (p : Preset) (d d' : Document) (m : Mutation) (patch : Patch)
    (valid : d.Valid p) (single : m.isBatch = false) (accepted : plan p d m = .ok (patch, d')) :
    Planned d m patch d' ∧
      (∀ patch' d'', Planned d m patch' d'' → patch' = patch ∧ d'' = d') ∧
      (patch = [] ↔ m.Idle d) ∧ (patch.map ElementChange.subject).Nodup := by
  have hplanned : Planned d m patch d' := by
    obtain ⟨draft, hstage, hext, rfl⟩ := plan_eq_ok accepted
    rw [stage_of_single single] at hstage
    have hd : (start d).working.Conforms p := valid.toConforms
    obtain ⟨changes, hchanges, hplanned⟩ := traced_of_perform hd single hstage
    -- the log of the draft is both the patch and what was traced
    have hsame : changes.reverse = patch.reverse := by
      simpa [start] using hchanges.log.symm.trans hext.log
    obtain rfl : changes = patch := List.reverse_inj.mp hsame
    exact hplanned
  exact ⟨hplanned, fun _ _ hother => hother.unique hplanned, hplanned.eq_nil_iff,
    hplanned.nodup_subjects⟩

/-- A host goes after the three edges at it, in their order. -/
theorem plan_planned_knot :
    Audit.validate Store.linkedHosts = .ok (.ok Store.linkPreset) ∧
      Store.knot.document.Valid Store.linkPreset ∧ (Mutation.removeNode "a").isBatch = false ∧
      ∃ patch d', plan Store.linkPreset Store.knot.document (.removeNode "a") = .ok (patch, d') ∧
        Planned Store.knot.document (.removeNode "a") patch d' ∧
        patch.map ElementChange.subject =
          [("edge", "aa"), ("edge", "ab"), ("edge", "ba"), ("node", "a")] := by
  have hvalid : Store.knot.document.Valid Store.linkPreset := Store.valid_grown _ _
  have hsubjects : (plan Store.linkPreset Store.knot.document (.removeNode "a")).toOption.map
      (fun planned => planned.1.map ElementChange.subject) =
        some [("edge", "aa"), ("edge", "ab"), ("edge", "ba"), ("node", "a")] := by
    decide +kernel
  obtain ⟨⟨patch, d'⟩, hsome, hpatch⟩ := Option.map_eq_some_iff.mp hsubjects
  have hplan := eq_ok_of_toOption hsome
  obtain ⟨hplanned, _⟩ := plan_planned _ _ d' _ patch hvalid rfl hplan
  exact ⟨Store.linkedHosts_accepted, hvalid, rfl, patch, d', hplan, hplanned, hpatch⟩

end Draft

end GraphWorkbench
