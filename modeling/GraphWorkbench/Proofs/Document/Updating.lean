import GraphWorkbench.Proofs.Document.Faults
import GraphWorkbench.Proofs.Document.Kinds
import GraphWorkbench.Proofs.Document.Reachable
/-!
What becomes of the properties that an update is to write. An update that is accepted leaves its
element with the amended properties, and those pass what is asked of them, but for one case: where
every value stays the same by magnitude, the update comes to nothing, though a truth value may have
been meant to take the place of a number.
-/
namespace GraphWorkbench

open Outcome

/-- An update, as seen from the element that it is about: what is asked of its properties, what they
are, and what is to become of them. -/
structure Amendment where
  definitions : List Property
  rules : List Rule
  properties : Table Json
  changes : Table Json
  removed : List String
  /-- Whether the element is moved as well. -/
  moves : Bool

namespace Amendment

def merged (a : Amendment) : Table Json := Draft.amended a.properties a.changes a.removed

/-- Properties pass the definitions and the rules of the element. -/
def Passes (a : Amendment) (properties : Table Json) : Prop :=
  (∀ q ∈ a.definitions, q.Accepts properties) ∧ ∀ r ∈ a.rules, r.Accepts properties

/-- Whether the update is carried out at all. -/
def isWritten (a : Amendment) : Bool := a.moves || !a.properties.sameBy Json.same a.merged

/-- What the update is to write differs from what is there in kind alone, and nothing is moved. -/
def Lost (a : Amendment) : Prop :=
  a.moves = false ∧ a.properties.sameBy Json.same a.merged = true ∧
    a.properties.sameBy Json.agrees a.merged = false

variable {a : Amendment}

/-- The changes come before what there was, and what is removed before both. -/
theorem get?_merged (key : String) : a.merged.get? key =
    if key ∈ a.removed then none else (a.changes.get? key).or (a.properties.get? key) := by
  rw [merged, Draft.amended, Table.get?_foldl_erase, Table.get?_merge]

theorem Lost.unwritten (h : a.Lost) : a.isWritten = false := by
  rw [isWritten, h.1, h.2.1]
  rfl

theorem agrees_of_not_lost (unwritten : a.isWritten = false) (h : ¬ a.Lost) :
    a.properties.sameBy Json.agrees a.merged = true := by
  have hsame : a.moves = false ∧ a.properties.sameBy Json.same a.merged = true := by
    simpa [isWritten] using unwritten
  rw [← Bool.not_eq_false]
  exact fun hdiffers => h ⟨hsame.1, hsame.2, hdiffers⟩

theorem Passes.of_agrees {properties properties' : Table Json}
    (h : properties.sameBy Json.agrees properties' = true) (passes : a.Passes properties) :
    a.Passes properties' := by
  constructor
  · exact fun q hq => (passes.1 q hq).of_agrees h
  · exact fun r hr => (passes.2 r hr).of_agrees h

end Amendment

/-- An update of a node or of an edge. -/
def Mutation.isUpdate : Mutation → Bool
  | .updateNode .. | .updateEdge .. => true
  | _ => false

namespace Document

/-- An update of an element of a document whose type the preset declares. -/
def amendment? (d : Document) (p : Preset) : Mutation → Option Amendment
  | .updateNode id changes removed position => do
    let n ← d.nodes.get? id
    let t ← p.governing? n.typeId
    let moves := match position with
      | some q => !q.equal n.position
      | none => false
    return { definitions := t.properties, rules := t.rules, properties := n.properties
             changes, removed, moves }
  | .updateEdge id changes removed => do
    let e ← d.edges.get? id
    let r ← p.ruling? e.typeId
    return { definitions := r.properties, rules := [], properties := e.properties
             changes, removed, moves := false }
  | _ => none

end Document

section Effect

variable {p : Preset} {d d' : Document} {m : Mutation} {id : String} {changes : Table Json}
  {removed : List String} {position : Option Position} {n : Node} {e : Edge} {t : NodeType}
  {r : Relationship}

theorem amendment?_node (found : d.nodes.get? id = some n) (governed : p.governing? n.typeId = some t) :
    ∃ a, d.amendment? p (.updateNode id changes removed position) = some a ∧
      a.properties = n.properties ∧ a.merged = (n.revised changes removed position).properties ∧
      a.isWritten = n.isRevised changes removed position ∧
      ∀ properties, a.Passes properties ↔
        (∀ q ∈ t.properties, q.Accepts properties) ∧ ∀ r ∈ t.rules, r.Accepts properties := by
  simp only [Document.amendment?, found, governed, Option.bind_eq_bind, Option.bind_some]
  exact ⟨_, rfl, rfl, rfl, rfl, fun _ => Iff.rfl⟩

theorem amendment?_edge (found : d.edges.get? id = some e) (ruled : p.ruling? e.typeId = some r) :
    ∃ a, d.amendment? p (.updateEdge id changes removed) = some a ∧
      a.properties = e.properties ∧ a.merged = (e.revised changes removed).properties ∧
      a.isWritten = Draft.isAmended e.properties changes removed ∧
      ∀ properties, a.Passes properties ↔ ∀ q ∈ r.properties, q.Accepts properties := by
  simp only [Document.amendment?, found, ruled, Option.bind_eq_bind, Option.bind_some]
  refine ⟨_, rfl, rfl, rfl, rfl, fun properties => ?_⟩
  simp [Amendment.Passes]

/-- What is amended is a node that is there, of a type that is declared, or such an edge. -/
theorem amendment?_cases {a : Amendment} (h : d.amendment? p m = some a) :
    (∃ id changes removed position n t, m = .updateNode id changes removed position ∧
      d.nodes.get? id = some n ∧ p.governing? n.typeId = some t ∧ a.properties = n.properties ∧
      a.isWritten = n.isRevised changes removed position ∧
      ∀ properties, a.Passes properties ↔
        (∀ q ∈ t.properties, q.Accepts properties) ∧ ∀ r ∈ t.rules, r.Accepts properties) ∨
    ∃ id changes removed e r, m = .updateEdge id changes removed ∧
      d.edges.get? id = some e ∧ p.ruling? e.typeId = some r ∧ a.properties = e.properties ∧
      a.isWritten = Draft.isAmended e.properties changes removed ∧
      ∀ properties, a.Passes properties ↔ ∀ q ∈ r.properties, q.Accepts properties := by
  cases m with
  | updateNode id changes removed position =>
    cases found : d.nodes.get? id with
    | none => simp [Document.amendment?, found] at h
    | some n =>
      cases governed : p.governing? n.typeId with
      | none => simp [Document.amendment?, found, governed] at h
      | some t =>
        obtain ⟨a', ha', hproperties, _, hwritten, hpasses⟩ := amendment?_node found governed
        obtain rfl : a = a' := Option.some.inj (h.symm.trans ha')
        exact .inl ⟨id, changes, removed, position, n, t, rfl, found, governed, hproperties, hwritten,
          hpasses⟩
  | updateEdge id changes removed =>
    cases found : d.edges.get? id with
    | none => simp [Document.amendment?, found] at h
    | some e =>
      cases ruled : p.ruling? e.typeId with
      | none => simp [Document.amendment?, found, ruled] at h
      | some r =>
        obtain ⟨a', ha', hproperties, _, hwritten, hpasses⟩ := amendment?_edge found ruled
        obtain rfl : a = a' := Option.some.inj (h.symm.trans ha')
        exact .inr ⟨id, changes, removed, e, r, rfl, found, ruled, hproperties, hwritten, hpasses⟩
  | _ => simp [Document.amendment?] at h

/-- The properties of a valid document pass what is asked of them before any update. -/
theorem Document.Conforms.passes (h : d.Conforms p) {a : Amendment}
    (ha : d.amendment? p m = some a) : a.Passes a.properties := by
  rcases amendment?_cases ha with
    ⟨id, _, _, _, n, t, rfl, found, governed, hproperties, _, hpasses⟩ |
    ⟨id, _, _, e, r, rfl, found, ruled, hproperties, _, hpasses⟩
  · obtain ⟨t', governed', haccepts⟩ := h.nodes n (Table.mem_values_of_get? found)
    obtain rfl : t = t' := Option.some.inj (governed.symm.trans governed')
    rw [hproperties]
    exact (hpasses _).mpr haccepts
  · obtain ⟨r', ruled', _, haccepts⟩ := h.edges e (Table.mem_values_of_get? found)
    obtain rfl : r = r' := Option.some.inj (ruled.symm.trans ruled')
    rw [hproperties]
    exact (hpasses _).mpr haccepts

/-- An update that is accepted either is not carried out or leaves the element with the amended
properties, which were checked. -/
theorem Effect.amendment (h : Effect p d m d') (hd : d.Conforms p) (update : m.isUpdate = true) :
    ∃ a, d.amendment? p m = some a ∧ ((a.isWritten = false ∧ d' = d) ∨
      (a.isWritten = true ∧ a.Passes a.merged ∧
        ∃ a', d'.amendment? p m = some a' ∧ a'.properties = a.merged)) := by
  cases h with
  | keepNode found same =>
    obtain ⟨t, hgoverned, _⟩ := hd.nodes _ (Table.mem_values_of_get? found)
    obtain ⟨a, ha, _, _, hwritten, _⟩ := amendment?_node found hgoverned
    exact ⟨a, ha, .inl ⟨hwritten.trans same, rfl⟩⟩
  | @updateNode id changes removed position n found differs checked present =>
    have hid : n.id = id := hd.nodeKeys _ (Entries.mem_of_get? found)
    obtain ⟨t, hgoverned, haccepts⟩ := Preset.checkNode_eq_ok_iff.mp checked
    obtain ⟨a, ha, _, hmerged, hwritten, hpasses⟩ := amendment?_node found hgoverned
    -- the node is found again under its key, with its type
    have hfound : (d.nodes.put n.id (n.revised changes removed position)).get? id =
        some (n.revised changes removed position) := by
      rw [hid, Table.get?_put, if_pos rfl]
    obtain ⟨a', ha', hproperties, _⟩ := amendment?_node
      (d := { d with nodes := d.nodes.put n.id (n.revised changes removed position) }) hfound
      hgoverned
    refine ⟨a, ha, .inr ⟨hwritten.trans differs, ?_, a', ha', hproperties.trans hmerged.symm⟩⟩
    rw [hmerged]
    exact (hpasses _).mpr haccepts
  | keepEdge found same =>
    obtain ⟨r, hruled, _⟩ := hd.edges _ (Table.mem_values_of_get? found)
    obtain ⟨a, ha, _, _, hwritten, _⟩ := amendment?_edge found hruled
    exact ⟨a, ha, .inl ⟨hwritten.trans same, rfl⟩⟩
  | @updateEdge id changes removed e r found differs ruled checked present =>
    have hid : e.id = id := hd.edgeKeys _ (Entries.mem_of_get? found)
    obtain ⟨a, ha, _, hmerged, hwritten, hpasses⟩ := amendment?_edge found ruled
    -- and so is the edge
    have hfound : (d.edges.put e.id (e.revised changes removed)).get? id =
        some (e.revised changes removed) := by
      rw [hid, Table.get?_put, if_pos rfl]
    obtain ⟨a', ha', hproperties, _⟩ := amendment?_edge
      (d := { d with edges := d.edges.put e.id (e.revised changes removed) }) hfound ruled
    refine ⟨a, ha, .inr ⟨hwritten.trans differs, ?_, a', ha', hproperties.trans hmerged.symm⟩⟩
    rw [hmerged]
    exact (hpasses _).mpr (checkProperties_eq_ok_iff.mp checked).1
  | _ => exact nomatch update

end Effect

namespace Draft

variable {p : Preset} {d d' : Document} {m : Mutation} {patch : Patch}

theorem effect_of_plan (single : m.isBatch = false) (h : plan p d m = .ok (patch, d')) :
    Effect p d m d' := by
  obtain ⟨draft, hstage, _, rfl⟩ := plan_eq_ok h
  rw [stage_of_single single] at hstage
  exact (accepted_of_perform single hstage).effect

/-- An update that is not to be written is planned without a change. -/
theorem plan_of_unwritten {a : Amendment} (ha : d.amendment? p m = some a)
    (unwritten : a.isWritten = false) : plan p d m = .ok ([], d) := by
  rcases amendment?_cases ha with
    ⟨id, changes, removed, position, n, _, rfl, found, _, _, hwritten, _⟩ |
    ⟨id, changes, removed, e, _, rfl, found, _, _, hwritten, _⟩
  · have hrun : (start d).updateNode p id changes removed position = .ok (start d) := by
      rw [updateNode_of_found found, ← hwritten, unwritten]
      rfl
    rw [plan, stage_of_single rfl, perform, hrun]
    rfl
  · have hrun : (start d).updateEdge p id changes removed = .ok (start d) := by
      rw [updateEdge_of_found found, ← hwritten, unwritten]
      rfl
    rw [plan, stage_of_single rfl, perform, hrun]
    rfl

end Draft

namespace Store

variable {s s' : Store} {m : Mutation} {changed : Bool}

theorem plan_of_apply (h : s.apply m = (s', .ok changed)) :
    ∃ patch, Draft.plan s.preset s.document m = .ok (patch, s'.document) := by
  cases hplan : Draft.plan s.preset s.document m with
  | error stop =>
    obtain ⟨log, happly⟩ := apply_of_stop hplan
    simp [happly] at h
  | ok planned =>
    obtain ⟨patch, d⟩ := planned
    cases patch with
    | nil =>
      have hsame : s.document = d := (Draft.trail_of_plan hplan).eq_of_nil
      obtain rfl : s = s' := congrArg Prod.fst ((apply_of_nil hplan).symm.trans h)
      exact ⟨[], by rw [hsame]⟩
    | cons c rest =>
      have happly := apply_of_ne_nil hplan (List.cons_ne_nil c rest)
      obtain rfl : _ = s' := congrArg Prod.fst (happly.symm.trans h)
      exact ⟨c :: rest, rfl⟩

theorem single_of_update (update : m.isUpdate = true) : m.isBatch = false := by
  cases m <;> first | rfl | exact nomatch update

/-- An update that is accepted either is lost, or the properties are the amended ones and pass. -/
theorem amendment_of_apply (valid : s.document.Valid s.preset) (update : m.isUpdate = true)
    (h : s.apply m = (s', .ok changed)) : ∃ a a',
      s.document.amendment? s.preset m = some a ∧ s'.document.amendment? s.preset m = some a' ∧
      (¬ a.Lost → a'.properties.sameBy Json.agrees a.merged = true ∧ a.Passes a.merged) := by
  obtain ⟨patch, hplan⟩ := plan_of_apply h
  have heffect := Draft.effect_of_plan (single_of_update update) hplan
  obtain ⟨a, ha, ⟨hunwritten, hsame⟩ | ⟨hwritten, hpasses, a', ha', hproperties⟩⟩ :=
    heffect.amendment valid.toConforms update
  · -- nothing was checked, but what was there passed before and agrees with what was asked for
    refine ⟨a, a, ha, hsame ▸ ha, fun hkept => ?_⟩
    have hagrees := Amendment.agrees_of_not_lost hunwritten hkept
    exact ⟨hagrees, (valid.toConforms.passes ha).of_agrees hagrees⟩
  · refine ⟨a, a', ha, ha', fun _ => ⟨?_, hpasses⟩⟩
    rw [hproperties]
    exact Table.sameBy_self Json.agrees_self a.merged

theorem exists_apply_of_plan {planned : Patch × Document}
    (h : Draft.plan s.preset s.document m = .ok planned) :
    ∃ s' changed, s.apply m = (s', .ok changed) := by
  obtain ⟨patch, d⟩ := planned
  cases patch with
  | nil => exact ⟨_, _, apply_of_nil h⟩
  | cons c rest => exact ⟨_, _, apply_of_ne_nil h (List.cons_ne_nil c rest)⟩

/-- An update that is not lost and would leave properties that do not pass is refused. -/
theorem refused_of_not_passes {a : Amendment} (valid : s.document.Valid s.preset)
    (update : m.isUpdate = true) (ha : s.document.amendment? s.preset m = some a)
    (kept : ¬ a.Lost) (fails : ¬ a.Passes a.merged) :
    ∃ stop, (s.apply m).2 = .error stop ∧ (s.apply m).1.document = s.document ∧
      (s.preset.WellFormed → ∀ f, stop = .fault f → m.Tears s.preset f) := by
  cases hplan : Draft.plan s.preset s.document m with
  | ok planned =>
    -- an accepted update that is not lost passes
    obtain ⟨s', changed, happly⟩ := exists_apply_of_plan hplan
    obtain ⟨a', _, ha', _, hmerged⟩ := amendment_of_apply valid update happly
    obtain rfl : a = a' := Option.some.inj (ha.symm.trans ha')
    exact absurd (hmerged kept).2 fails
  | error stop =>
    obtain ⟨log, happly⟩ := apply_of_stop hplan
    have hstop : (s.apply m).2 = .error stop := congrArg Prod.snd happly
    have hdocument : (s.apply m).1.document = s.document := by rw [happly]
    refine ⟨stop, hstop, hdocument, ?_⟩
    rintro hwell f rfl
    obtain ⟨⟨leaf, hleaf, htears⟩, _⟩ := tears_of_apply hwell valid.toConforms.checked hstop
    -- an update is the only leaf of itself
    rw [Mutation.leaves_of_single (single_of_update update), List.mem_singleton] at hleaf
    exact hleaf ▸ htears

section Example

/-- A candidate in which hosts have a count, which is a number. -/
def countedHosts : Json :=
  .obj [("id", .str "net"), ("name", .str "Net"), ("version", .str "2.0.0"),
    ("nodeTypes", .arr [.obj [("id", .str "host"), ("name", .str "Host"),
      ("properties", .arr [.obj [("id", .str "count"), ("name", .str "Count"),
        ("type", .str "number")]]),
      ("style", .obj [("color", .str "#000000")])]])]

def countedPreset : Preset :=
  { id := "net", name := "Net", version := "2.0.0"
    nodeTypes := [{ id := "host", name := "Host", style := { color := "#000000" }
                    properties := [{ id := "count", name := "Count", kind := .number }] }] }

theorem countedHosts_accepted : Audit.validate countedHosts = .ok (.ok countedPreset) := by
  decide +kernel

/-- One host, which has been counted once. -/
def countedHost : Store :=
  grown countedPreset [.addNode
    { id := "a", typeId := "host", properties := .ofEntries [("count", .int 1)] }]

def recount (v : Json) : Mutation := .updateNode "a" (.ofEntries [("count", v)]) [] none

/-- The host's count is to be replaced. -/
def recounted (v : Json) : Amendment :=
  { definitions := [{ id := "count", name := "Count", kind := .number }], rules := []
    properties := .ofEntries [("count", .int 1)], changes := .ofEntries [("count", v)]
    removed := [], moves := false }

theorem amendment?_recount (v : Json) :
    countedHost.document.amendment? countedPreset (recount v) = some (recounted v) := by
  rfl

/-- A count that is no number does not pass. -/
theorem not_passes_recounted {v : Json} (given : v.isVacant = false) (kind : v.quantity? = none) :
    ¬ (recounted v).Passes (recounted v).merged := by
  intro hpasses
  have haccepts := hpasses.1 _ List.mem_cons_self
  have hcount : (recounted v).merged.get? "count" = some v := (recounted v).get?_merged "count"
  have hgiven : given? (recounted v).merged "count" = some v := by
    rw [given?, hcount, Option.filter_some, given]
    rfl
  simp [Property.Accepts, hgiven, PropertyKind.admits, kind] at haccepts

end Example

/-- Where an update of a valid document is accepted, the element has afterwards the properties that
the update asks for, in value and in kind, and they pass the definitions and rules of the element;
where they would not pass, it is refused and the document stays, with a fault only for a text that
cannot be taken apart. Except for what is lost: an update that differs from what is there in kind
alone is answered as if it had been accepted, and neither checked nor carried out. -/
theorem apply_update (s : Store) (m : Mutation) (valid : s.document.Valid s.preset)
    (update : m.isUpdate = true) :
    (∀ s' changed, s.apply m = (s', .ok changed) → ∃ a a',
      s.document.amendment? s.preset m = some a ∧ s'.document.amendment? s.preset m = some a' ∧
      (∀ key, a.merged.get? key =
        if key ∈ a.removed then none else (a.changes.get? key).or (a.properties.get? key)) ∧
      (¬ a.Lost → a'.properties.sameBy Json.agrees a.merged = true ∧ a.Passes a.merged)) ∧
    ∀ a, s.document.amendment? s.preset m = some a →
      (¬ a.Lost → ¬ a.Passes a.merged → ∃ stop, (s.apply m).2 = .error stop ∧
        (s.apply m).1.document = s.document ∧
        (s.preset.WellFormed → ∀ f, stop = .fault f → m.Tears s.preset f)) ∧
      (a.Lost → s.apply m = (s, .ok false)) := by
  constructor
  · intro s' changed h
    obtain ⟨a, a', ha, ha', hmerged⟩ := amendment_of_apply valid update h
    exact ⟨a, a', ha, ha', a.get?_merged, hmerged⟩
  · intro a ha
    constructor
    · exact refused_of_not_passes valid update ha
    · exact fun hlost => apply_of_nil (Draft.plan_of_unwritten ha hlost.unwritten)

/-- A new number is written; a text is not. -/
theorem apply_update_recount :
    countedHost.document.Valid countedHost.preset ∧ (recount (.int 2)).isUpdate = true ∧
      (countedHost.apply (recount (.int 2))).2 = .ok true ∧ (recounted (.int 2)).Passes
        (recounted (.int 2)).merged ∧
      ∃ stop, (countedHost.apply (recount (.str "two"))).2 = .error stop := by
  have hvalid : countedHost.document.Valid countedHost.preset := by
    rw [countedHost, preset_grown]
    exact valid_grown _ _
  have htaken : (countedHost.apply (recount (.int 2))).2 = .ok true := by decide +kernel
  obtain ⟨hwritten, _⟩ := apply_update countedHost (recount (.int 2)) hvalid rfl
  obtain ⟨_, hrefused⟩ := apply_update countedHost (recount (.str "two")) hvalid rfl
  refine ⟨hvalid, rfl, htaken, ?_, ?_⟩
  · obtain ⟨a, a', ha, _, _, hpasses⟩ := hwritten _ _ (Prod.ext rfl htaken)
    obtain rfl : recounted (.int 2) = a :=
      Option.some.inj ((amendment?_recount (.int 2)).symm.trans ha)
    exact (hpasses fun hlost => absurd hlost.2.1 (by decide +kernel)).2
  · have hfails := not_passes_recounted (v := .str "two") rfl rfl
    have hkept : ¬ (recounted (.str "two")).Lost :=
      fun hlost => absurd hlost.2.1 (by decide +kernel)
    obtain ⟨stop, hstop, _⟩ := (hrefused _ (amendment?_recount (.str "two"))).1 hkept hfails
    exact ⟨stop, hstop⟩

/-- A truth value in place of the number one is neither refused nor written; a new host that has it
is refused. -/
theorem apply_update_lost :
    Audit.validate countedHosts = .ok (.ok countedPreset) ∧
      countedHost.document.Valid countedPreset ∧
      (countedHost.apply (recount (.bool true))).2 = .ok false ∧
      (recounted (.bool true)).merged.get? "count" = some (.bool true) ∧
      ¬ (recounted (.bool true)).Passes (recounted (.bool true)).merged ∧
      ∃ rejection, (countedHost.apply (.addNode
        { id := "b", typeId := "host", properties := .ofEntries [("count", .bool true)] })).2 =
          .error (.rejected rejection) := by
  have hunwritten : (countedHost.apply (recount (.bool true))).2 = .ok false := by decide +kernel
  have hmerged : (recounted (.bool true)).merged.get? "count" = some (.bool true) := by
    decide +kernel
  have hfails := not_passes_recounted (v := .bool true) rfl rfl
  exact ⟨countedHosts_accepted, valid_grown _ _, hunwritten, hmerged, hfails, _, rfl⟩

end Store

end GraphWorkbench
