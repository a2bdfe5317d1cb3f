import GraphWorkbench.Proofs.Document.Reachable
import GraphWorkbench.Proofs.Preset.Audit
/-!
Where faults come from. Of all checks of a value only one can meet a fault: the one for addresses,
on a text that cannot be taken apart as one. So a mutation of a valid document, or a document that
is loaded, is either accepted or refused unless it writes such a text under a property that is to
hold an address.
-/
namespace GraphWorkbench

open Outcome

/-- A text that cannot be taken apart as an address, and the fault that this is. -/
def Url.Torn (s : String) (f : Fault) : Prop :=
  ∃ defect, Url.isWeb s = .error defect ∧ f = .malformed defect.message

/-- The property is to hold an address, and the text under it cannot be taken apart as one. -/
def Property.Tears (q : Property) (properties : Table Json) (f : Fault) : Prop :=
  q.kind = .url ∧ ∃ s, properties.get? q.id = some (.str s) ∧ Url.Torn s f

/-- The preset defines the property, for the nodes of a type or for the edges of a relationship. -/
def Preset.Defines (p : Preset) (q : Property) : Prop :=
  (∃ t ∈ p.nodeTypes, q ∈ t.properties) ∨ ∃ r ∈ p.relationships, q ∈ r.properties

/-- The properties that a mutation writes. A batch writes none by itself. -/
def Mutation.written : Mutation → Table Json
  | .addNode n => n.properties
  | .updateNode _ changes _ _ => changes
  | .addEdge e => e.properties
  | .updateEdge _ changes _ => changes
  | .removeNode _ | .removeEdge _ | .batch .. => .empty

/-- The mutation writes a text that cannot be taken apart under a property for addresses. -/
def Mutation.Tears (p : Preset) (m : Mutation) (f : Fault) : Prop :=
  ∃ q, p.Defines q ∧ q.Tears m.written f

/-- A refusal for any reason, or a fault of a kind. -/
def Stop.Only (F : Fault → Prop) : Stop → Prop
  | .rejected _ => True
  | .fault f => F f

theorem Stop.Only.imp {F G : Fault → Prop} (weaker : ∀ f, F f → G f) :
    ∀ stop, Only F stop → Only G stop
  | .rejected _, _ => trivial
  | .fault f, h => weaker f h

section Values

variable {element : String} {properties changes : Table Json} {removed : List String} {f : Fault}

theorem Url.Torn.ne_empty {s : String} (h : Torn s f) : s ≠ "" := by
  rintro rfl
  obtain ⟨defect, hdefect, _⟩ := h
  have hempty : isWeb "" = .ok false := by decide
  exact nomatch hempty.symm.trans hdefect

theorem PropertyKind.admits_eq_error_iff {kind : PropertyKind} {options : List String} {v : Json} :
    kind.admits options v = .error f ↔ kind = .url ∧ ∃ s, v = .str s ∧ Url.Torn s f := by
  constructor
  · intro h
    unfold admits at h
    simp only at h
    split at h
    case h_5 s =>
      refine ⟨rfl, s, rfl, ?_⟩
      cases hs : Url.isWeb s with
      | ok b => simp [hs, mapError_ok] at h
      | error defect =>
        simp only [hs, mapError_error, Except.error.injEq] at h
        exact ⟨defect, hs, h.symm⟩
    all_goals simp at h
  · rintro ⟨rfl, s, rfl, defect, hs, rfl⟩
    simp [admits, hs, mapError_error]

/-- A limit of the right kind can be compared with any value. -/
theorem Rule.exists_admits {r : Rule} (usable : r.Usable) (v : Json) : ∃ b, r.admits v = .ok b := by
  obtain ⟨property, check, limit, message⟩ := r
  have hcompared : (∃ n, limit = .int n) ∨ (∃ x, limit = .float x) →
      ∀ test x, ∃ b, comparedTo limit test x = .ok b := by
    rintro (⟨n, rfl⟩ | ⟨x, rfl⟩) test y <;> exact ⟨_, rfl⟩
  unfold admits
  cases check with
  | pattern =>
    obtain ⟨compiled, hcompiled⟩ := usable
    cases v with
    | str s => exact ⟨compiled.foundIn s, by simp [matchesPattern, hcompiled]⟩
    | _ => exact ⟨false, rfl⟩
  | min | max | minLength | maxLength =>
    simp only
    split
    · exact hcompared usable _ _
    · exact ⟨false, rfl⟩
  | oneOf =>
    obtain ⟨items, rfl⟩ := usable
    exact ⟨v.memberOf items, by simp [isHeldBy]⟩

/-- The stops of a check of properties: a refusal that names the element, or a fault that comes from
one of the definitions. -/
def PropertyStop (element : String) (definitions : List Property) (properties : Table Json) :
    Stop → Prop
  | .rejected r => ∃ property defect, r = .badProperty element property defect
  | .fault f => ∃ q ∈ definitions, q.Tears properties f

theorem PropertyStop.only {definitions : List Property} :
    ∀ stop, PropertyStop element definitions properties stop →
      Stop.Only (fun f => ∃ q ∈ definitions, q.Tears properties f) stop
  | .rejected _, _ => trivial
  | .fault _, h => h

theorem given?_eq_some {name : String} {v : Json} (h : given? properties name = some v) :
    properties.get? name = some v :=
  (Option.filter_eq_some_iff.mp h).1

/-- A test that refuses an element when it fails. -/
theorem refuse_unless_stops {test : Except Fault Bool} {property : String}
    {defect : PropertyDefect} {definitions : List Property}
    (h : ∀ f, test = .error f → ∃ q ∈ definitions, q.Tears properties f) :
    StopsOnly (do if !(← Stop.ofFault test) then refuse element property defect : Except Stop Unit)
      (PropertyStop element definitions properties) := by
  refine StopsOnly.bind (StopsOnly.mapError h) fun b _ => ?_
  cases b with
  | true => exact .ok ()
  | false => exact .error ⟨property, defect, rfl⟩

theorem Property.check_stops {q : Property} {definitions : List Property} (hq : q ∈ definitions) :
    StopsOnly (q.check element properties) (PropertyStop element definitions properties) := by
  unfold Property.check
  split
  next =>
    split
    · exact .error ⟨q.id, .missing, rfl⟩
    · exact .ok ()
  next v hv =>
    refine refuse_unless_stops fun f hf => ?_
    obtain ⟨hkind, s, rfl, htorn⟩ := PropertyKind.admits_eq_error_iff.mp hf
    exact ⟨q, hq, hkind, s, given?_eq_some hv, htorn⟩

theorem Rule.enforce_stops {r : Rule} {definitions : List Property} (usable : r.Usable) :
    StopsOnly (r.enforce element properties) (PropertyStop element definitions properties) := by
  unfold Rule.enforce
  split
  next => exact .ok ()
  next v _ =>
    refine refuse_unless_stops fun f hf => ?_
    obtain ⟨b, hb⟩ := Rule.exists_admits usable v
    exact nomatch hb.symm.trans hf

theorem checkProperties_stops {definitions : List Property} {rules : List Rule}
    (usable : ∀ r ∈ rules, r.Usable) :
    StopsOnly (checkProperties element definitions rules properties)
      (PropertyStop element definitions properties) := by
  have hdefinitions : StopsOnly (definitions.forM (Property.check element properties))
      (PropertyStop element definitions properties) :=
    StopsOnly.forM fun q hq => Property.check_stops hq
  exact hdefinitions.bind fun _ _ => StopsOnly.forM fun r hr => Rule.enforce_stops (usable r hr)

/-- The properties that an element had before were accepted, so what cannot be taken apart is new. -/
theorem Property.tears_of_amended {q : Property} (accepts : q.Accepts properties)
    (h : q.Tears (Draft.amended properties changes removed) f) : q.Tears changes f := by
  obtain ⟨hkind, s, hs, htorn⟩ := h
  have hmerged := Table.get?_of_get?_foldl_erase hs
  rw [Table.get?_merge, Option.or_eq_some_iff] at hmerged
  rcases hmerged with hnew | ⟨_, hold⟩
  · exact ⟨hkind, s, hnew, htorn⟩
  · have hgiven : given? properties q.id = some (.str s) :=
      Option.filter_eq_some_iff.mpr ⟨hold, by simpa [Json.isVacant] using htorn.ne_empty⟩
    have herror : q.kind.admits (q.options.getD []) (.str s) = .error f :=
      PropertyKind.admits_eq_error_iff.mpr ⟨hkind, s, rfl, htorn⟩
    rw [Property.Accepts, hgiven] at accepts
    exact nomatch accepts.symm.trans herror

end Values

namespace Preset

variable {p : Preset} {properties : Table Json} {f : Fault}

theorem mem_of_governing? {typeId : String} {t : NodeType} (h : p.governing? typeId = some t) :
    t ∈ p.nodeTypes :=
  List.mem_reverse.mp (List.mem_of_find?_eq_some h)

theorem mem_of_ruling? {typeId : String} {r : Relationship} (h : p.ruling? typeId = some r) :
    r ∈ p.relationships :=
  List.mem_reverse.mp (List.mem_of_find?_eq_some h)

/-! Checks that only ever refuse. -/

theorem typeOf_stops {F : Fault → Prop} (n : Node) : StopsOnly (p.typeOf n) (Stop.Only F) := by
  unfold typeOf
  split
  · exact .ok _
  · exact .error trivial

theorem relationshipOf_stops {F : Fault → Prop} (e : Edge) :
    StopsOnly (p.relationshipOf e) (Stop.Only F) := by
  unfold relationshipOf
  split
  · exact .ok _
  · exact .error trivial

theorem endOf_stops {F : Fault → Prop} {nodes : Table Node} {e : Edge} {key : String} :
    StopsOnly (endOf nodes e key) (Stop.Only F) := by
  unfold endOf
  split
  · exact .ok _
  · exact .error trivial

theorem checkMultiplicity_stops {F : Fault → Prop} {r : Relationship} {e : Edge} {edges : List Edge}
    {countInferred : Bool} :
    StopsOnly (checkMultiplicity r e edges countInferred) (Stop.Only F)
  | .rejected _, _ => trivial
  | .fault _, h => absurd h checkMultiplicity_ne_fault

theorem checkNodeRoom_stops {F : Fault → Prop} {count : Nat} {id : String} :
    StopsOnly (p.checkNodeRoom count id) (Stop.Only F) := by
  unfold checkNodeRoom
  split
  · exact .error trivial
  · exact .ok ()

theorem checkEdgeRoom_stops {F : Fault → Prop} {count : Nat} {id : String} :
    StopsOnly (p.checkEdgeRoom count id) (Stop.Only F) := by
  unfold checkEdgeRoom
  split
  · exact .error trivial
  · exact .ok ()

/-! Checks that look at properties. -/

theorem checkNode_stops (hp : p.WellFormed) (n : Node) :
    StopsOnly (p.checkNode n) (Stop.Only fun f =>
      ∃ t, p.governing? n.typeId = some t ∧ ∃ q ∈ t.properties, q.Tears n.properties f) := by
  refine (typeOf_stops n).bind fun t ht => ?_
  have htype : p.governing? n.typeId = some t := typeOf_eq_ok.mp ht
  have husable : ∀ r ∈ t.rules, r.Usable := fun r hr =>
    ((hp.types t (mem_of_governing? htype)).rules r hr).2
  have hchecked : StopsOnly (checkProperties n.id t.properties t.rules n.properties) _ :=
    (checkProperties_stops husable).imp PropertyStop.only
  exact hchecked.imp (Stop.Only.imp fun f hf => ⟨t, htype, hf⟩)

/-- The properties of an edge are checked against definitions only. -/
theorem checkEdgeProperties_stops {element : String} {r : Relationship} :
    StopsOnly (checkProperties element r.properties [] properties)
      (Stop.Only fun f => ∃ q ∈ r.properties, q.Tears properties f) :=
  (checkProperties_stops (by simp)).imp PropertyStop.only

theorem checkEdge_stops (nodes : Table Node) (edges : Table Edge) (e : Edge) :
    StopsOnly (p.checkEdge nodes edges e) (Stop.Only fun f =>
      ∃ r, p.ruling? e.typeId = some r ∧ ∃ q ∈ r.properties, q.Tears e.properties f) := by
  refine (relationshipOf_stops e).bind fun r hr => ?_
  refine endOf_stops.bind fun source _ => endOf_stops.bind fun target _ => ?_
  refine (typeOf_stops source).bind fun sourceType _ => ?_
  refine (typeOf_stops target).bind fun targetType _ => ?_
  by_cases hfits : (!r.fits sourceType targetType) = true
  · rw [if_pos hfits]
    exact .error trivial
  · rw [if_neg hfits]
    refine checkMultiplicity_stops.bind fun _ _ => ?_
    exact checkEdgeProperties_stops.imp
      (Stop.Only.imp fun f hf => ⟨r, relationshipOf_eq_ok.mp hr, hf⟩)

theorem accepts_of_checkEdge {nodes : Table Node} {edges : Table Edge} {e : Edge}
    (h : p.checkEdge nodes edges e = .ok ()) :
    ∃ r, p.ruling? e.typeId = some r ∧ ∀ q ∈ r.properties, q.Accepts e.properties := by
  unfold checkEdge at h
  simp only [bind_eq_ok, relationshipOf_eq_ok] at h
  obtain ⟨r, ruled, source, _, target, _, sourceType, _, targetType, _, h⟩ := h
  cases fits : r.fits sourceType targetType with
  | false => simp [fits, throw_bind] at h
  | true =>
    simp only [fits, Bool.not_true, Bool.false_eq_true, if_false, bind_eq_ok,
      checkProperties_eq_ok_iff] at h
    obtain ⟨_, _, haccepts, _⟩ := h
    exact ⟨r, ruled, haccepts⟩

end Preset

/-- What a document promises to later checks: its elements go by their keys, and what they hold was
accepted. -/
structure Document.Checked (p : Preset) (d : Document) : Prop where
  nodeKeys : ∀ entry ∈ d.nodes.entries, entry.2.id = entry.1
  edgeKeys : ∀ entry ∈ d.edges.entries, entry.2.id = entry.1
  nodes : ∀ n ∈ d.nodes.values, p.AdmitsNode n
  edges : ∀ e ∈ d.edges.values, ∃ r, p.ruling? e.typeId = some r ∧
    ∀ q ∈ r.properties, q.Accepts e.properties

theorem Document.Conforms.checked {p : Preset} {d : Document} (h : d.Conforms p) : d.Checked p where
  nodeKeys := h.nodeKeys
  edgeKeys := h.edgeKeys
  nodes := h.nodes
  edges e he := by
    obtain ⟨r, hr, _, haccepts⟩ := h.edges e he
    exact ⟨r, hr, haccepts⟩

namespace Document.Checked

variable {p : Preset} {d : Document}

theorem putNode (h : d.Checked p) {n : Node} (admitted : p.AdmitsNode n) :
    Checked p { d with nodes := d.nodes.put n.id n } := by
  refine { h with nodeKeys := ?_, nodes := ?_ }
  · intro entry hentry
    rcases Entries.mem_put hentry with rfl | hold
    · rfl
    · exact h.nodeKeys entry hold
  · intro m hm
    rcases Table.mem_values_put hm with rfl | hold
    · exact admitted
    · exact h.nodes m hold

theorem putEdge (h : d.Checked p) {e : Edge}
    (accepted : ∃ r, p.ruling? e.typeId = some r ∧ ∀ q ∈ r.properties, q.Accepts e.properties) :
    Checked p { d with edges := d.edges.put e.id e } := by
  refine { h with edgeKeys := ?_, edges := ?_ }
  · intro entry hentry
    rcases Entries.mem_put hentry with rfl | hold
    · rfl
    · exact h.edgeKeys entry hold
  · intro o ho
    rcases Table.mem_values_put ho with rfl | hold
    · exact accepted
    · exact h.edges o hold

/-- Taking elements away breaks no promise about the others. -/
theorem sublist (h : d.Checked p) {nodes : Table Node} {edges : Table Edge}
    (hnodes : nodes.entries.Sublist d.nodes.entries)
    (hedges : edges.entries.Sublist d.edges.entries) : Checked p { d with nodes, edges } where
  nodeKeys entry hentry := h.nodeKeys entry (hnodes.subset hentry)
  edgeKeys entry hentry := h.edgeKeys entry (hedges.subset hentry)
  nodes n hn := h.nodes n ((hnodes.map Prod.snd).subset hn)
  edges e he := h.edges e ((hedges.map Prod.snd).subset he)

end Document.Checked

theorem Effect.checked {p : Preset} {d d' : Document} {m : Mutation} (h : Effect p d m d')
    (hd : d.Checked p) : d'.Checked p := by
  cases h with
  | addNode _ _ checked => exact hd.putNode (Preset.checkNode_eq_ok_iff.mp checked)
  | keepNode => exact hd
  | @updateNode id changes removed position n _ _ checked _ =>
    exact hd.putNode (n := n.revised changes removed position)
      (Preset.checkNode_eq_ok_iff.mp checked)
  | removeNode _ =>
    exact hd.sublist (Table.entries_erase_sublist _ _) (Table.entries_without_sublist _ _)
  | addEdge _ _ _ checked => exact hd.putEdge (Preset.accepts_of_checkEdge checked)
  | keepEdge => exact hd
  | @updateEdge id changes removed e r _ _ ruled checked _ =>
    exact hd.putEdge (e := e.revised changes removed)
      ⟨r, ruled, (checkProperties_eq_ok_iff.mp checked).1⟩
  | removeEdge _ => exact hd.sublist (.refl _) (Table.entries_erase_sublist _ _)

namespace Draft

variable {p : Preset} {d d' : Draft} {f : Fault}

/-! Each operation on a draft, in the order in which it makes its checks. -/

theorem addNode_stops (hp : p.WellFormed) (d : Draft) (n : Node) :
    StopsOnly (d.addNode p n) (Stop.Only ((Mutation.addNode n).Tears p)) := by
  unfold addNode
  cases fresh : d.working.nodes.has n.id with
  | true => exact .error trivial
  | false =>
    have hchecked : StopsOnly (p.checkNode n) (Stop.Only ((Mutation.addNode n).Tears p)) :=
      (Preset.checkNode_stops hp n).imp <| Stop.Only.imp fun f ⟨t, ht, q, hq, htears⟩ =>
        ⟨q, .inl ⟨t, Preset.mem_of_governing? ht, hq⟩, htears⟩
    refine Preset.checkNodeRoom_stops.bind fun _ _ => hchecked.bind fun _ _ => ?_
    rw [insertNode_eq fresh]
    exact .ok _

theorem addEdge_stops (d : Draft) (e : Edge) :
    StopsOnly (d.addEdge p e) (Stop.Only ((Mutation.addEdge e).Tears p)) := by
  unfold addEdge
  cases e.inferred with
  | true => exact .error trivial
  | false =>
  cases fresh : d.working.edges.has e.id with
  | true => exact .error trivial
  | false =>
    have hchecked : StopsOnly (p.checkEdge d.working.nodes d.working.edges e)
        (Stop.Only ((Mutation.addEdge e).Tears p)) :=
      (Preset.checkEdge_stops _ _ e).imp <| Stop.Only.imp fun f ⟨r, hr, q, hq, htears⟩ =>
        ⟨q, .inr ⟨r, Preset.mem_of_ruling? hr, hq⟩, htears⟩
    refine Preset.checkEdgeRoom_stops.bind fun _ _ => hchecked.bind fun _ _ => ?_
    rw [insertEdge_eq fresh]
    exact .ok _

theorem updateNode_stops (hp : p.WellFormed) (hd : d.working.Checked p) (id : String)
    (changes : Table Json) (removed : List String) (position : Option Position) :
    StopsOnly (d.updateNode p id changes removed position)
      (Stop.Only ((Mutation.updateNode id changes removed position).Tears p)) := by
  cases found : d.working.nodes.get? id with
  | none =>
    unfold updateNode
    rw [found]
    exact .error trivial
  | some n =>
    rw [updateNode_of_found found]
    split
    next =>
      have hchecked : StopsOnly (p.checkNode (n.revised changes removed position))
          (Stop.Only ((Mutation.updateNode id changes removed position).Tears p)) := by
        refine (Preset.checkNode_stops hp _).imp <| Stop.Only.imp fun f hf => ?_
        obtain ⟨t, ht, q, hq, htears⟩ := hf
        -- the node is of the same type as before, and what it had was accepted
        obtain ⟨t', ht', haccepts, _⟩ := hd.nodes n (Table.mem_values_of_get? found)
        obtain rfl : t' = t := Option.some.inj (ht'.symm.trans ht)
        exact ⟨q, .inl ⟨t', Preset.mem_of_governing? ht, hq⟩,
          Property.tears_of_amended (haccepts q hq) htears⟩
      refine hchecked.bind fun _ _ => ?_
      have hid : n.id = id := hd.nodeKeys _ (Entries.mem_of_get? found)
      obtain ⟨before, after, hentries⟩ := Table.exists_at (hid ▸ found)
      rw [replaceNode_at hentries]
      exact .ok _
    next => exact .ok d

theorem updateEdge_stops (hd : d.working.Checked p) (id : String) (changes : Table Json)
    (removed : List String) :
    StopsOnly (d.updateEdge p id changes removed)
      (Stop.Only ((Mutation.updateEdge id changes removed).Tears p)) := by
  cases found : d.working.edges.get? id with
  | none =>
    unfold updateEdge
    rw [found]
    exact .error trivial
  | some e =>
    rw [updateEdge_of_found found]
    split
    next =>
      refine (Preset.relationshipOf_stops e).bind fun r hr => ?_
      have hr := Preset.relationshipOf_eq_ok.mp hr
      have hchecked : StopsOnly
          (checkProperties e.id r.properties [] (e.revised changes removed).properties)
          (Stop.Only ((Mutation.updateEdge id changes removed).Tears p)) := by
        refine Preset.checkEdgeProperties_stops.imp <| Stop.Only.imp fun f hf => ?_
        obtain ⟨q, hq, htears⟩ := hf
        obtain ⟨r', hr', haccepts⟩ := hd.edges e (Table.mem_values_of_get? found)
        obtain rfl : r' = r := Option.some.inj (hr'.symm.trans hr)
        exact ⟨q, .inr ⟨r', Preset.mem_of_ruling? hr, hq⟩,
          Property.tears_of_amended (haccepts q hq) htears⟩
      refine hchecked.bind fun _ _ => ?_
      have hid : e.id = id := hd.edgeKeys _ (Entries.mem_of_get? found)
      obtain ⟨before, after, hentries⟩ := Table.exists_at (hid ▸ found)
      rw [replaceEdge_at hentries]
      exact .ok _
    next => exact .ok d

theorem removeNode_stops {F : Fault → Prop} (d : Draft) (id : String) :
    StopsOnly (d.removeNode id) (Stop.Only F) := by
  cases present : d.working.nodes.has id with
  | false =>
    unfold removeNode
    rw [present]
    exact .error trivial
  | true =>
    obtain ⟨after, hafter, _⟩ := removeNode_of_present (p := default) present
    rw [hafter]
    exact .ok after

theorem removeEdge_stops {F : Fault → Prop} (d : Draft) (id : String) :
    StopsOnly (d.removeEdge id) (Stop.Only F) := by
  cases present : d.working.edges.has id with
  | false =>
    unfold removeEdge
    rw [present]
    exact .error trivial
  | true =>
    obtain ⟨after, hafter, _⟩ := removeEdge_of_present (p := default) present
    rw [hafter]
    exact .ok after

/-- A mutation that is no batch meets a fault only by what it writes. -/
theorem tears_of_perform_single (hp : p.WellFormed) (hd : d.working.Checked p) {m : Mutation}
    (single : m.isBatch = false) (h : perform p d m = (d', some (.fault f))) : m.Tears p f := by
  have hattempt : ∀ {r : Except Stop Draft}, d.attempt r = (d', some (.fault f)) →
      StopsOnly r (Stop.Only (m.Tears p)) → m.Tears p f := by
    intro r hr hstops
    cases r with
    | ok next => simp [attempt] at hr
    | error stop =>
      have hstop : stop = .fault f := Option.some.inj (congrArg Prod.snd hr)
      exact hstops (.fault f) (hstop ▸ rfl)
  cases m with
  | addNode n => exact hattempt (by rwa [perform] at h) (addNode_stops hp d n)
  | updateNode id changes removed position =>
    exact hattempt (by rwa [perform] at h) (updateNode_stops hp hd id changes removed position)
  | removeNode id => exact hattempt (by rwa [perform] at h) (removeNode_stops d id)
  | addEdge e => exact hattempt (by rwa [perform] at h) (addEdge_stops d e)
  | updateEdge id changes removed =>
    exact hattempt (by rwa [perform] at h) (updateEdge_stops hd id changes removed)
  | removeEdge id => exact hattempt (by rwa [perform] at h) (removeEdge_stops d id)
  | batch label steps => simp [Mutation.isBatch] at single

/-- The steps of a run are each made on a document that earlier ones have left in order. -/
theorem tears_of_performAll (hp : p.WellFormed) (hd : d.working.Checked p) {steps : List Mutation}
    (single : ∀ m ∈ steps, m.isBatch = false)
    (h : performAll p d steps = (d', some (.fault f))) : ∃ m ∈ steps, m.Tears p f := by
  induction steps generalizing d with
  | nil => simp [performAll] at h
  | cons m rest ih =>
    obtain ⟨hm, hrest⟩ := List.forall_mem_cons.mp single
    rw [performAll] at h
    split at h
    next mid hperform =>
      have heffect := (accepted_of_perform hm hperform).effect
      obtain ⟨leaf, hleaf, htears⟩ := ih (heffect.checked hd) hrest h
      exact ⟨leaf, List.mem_cons_of_mem _ hleaf, htears⟩
    next mid stop hperform =>
      rw [h] at hperform
      exact ⟨m, List.mem_cons_self, tears_of_perform_single hp hd hm hperform⟩

theorem tears_of_stage (hp : p.WellFormed) (hd : d.working.Checked p) {m : Mutation}
    (h : stage p d m = (d', some (.fault f))) : ∃ leaf ∈ m.leaves, leaf.Tears p f := by
  rcases stage_cases (p := p) d m with ⟨r, _, hs⟩ | ⟨_, hs⟩
  · rw [hs] at h
    simp at h
  · rw [hs, perform_eq_leaves] at h
    exact tears_of_performAll hp hd m.single_of_mem_leaves h

theorem tears_of_plan (hp : p.WellFormed) {doc : Document} (hd : doc.Checked p) {m : Mutation}
    (h : plan p doc m = .error (.fault f)) : ∃ leaf ∈ m.leaves, leaf.Tears p f := by
  unfold plan at h
  split at h
  next => simp at h
  next draft stop hstage =>
    rw [Except.error.inj h] at hstage
    exact tears_of_stage (d := start doc) hp hd hstage

end Draft

namespace Store

variable {p : Preset} {s : Store} {m : Mutation} {f : Fault}

/-- A fault keeps the store as it is, and comes from what the mutation writes. -/
theorem tears_of_apply (hp : s.preset.WellFormed) (hd : s.document.Checked s.preset)
    (h : (s.apply m).2 = .error (.fault f)) :
    (∃ leaf ∈ m.leaves, leaf.Tears s.preset f) ∧ (s.apply m).1 = s := by
  unfold apply at h ⊢
  cases hplan : Draft.plan s.preset s.document m with
  | error stop =>
    cases stop with
    | rejected r => simp [hplan] at h
    | fault f' =>
      simp only [hplan, Except.error.injEq, Stop.fault.injEq] at h
      exact ⟨Draft.tears_of_plan hp hd (h ▸ hplan), rfl⟩
  | ok planned =>
    simp only [hplan] at h
    split at h <;> simp at h

end Store

namespace Exchange

variable {p : Preset} {state : Loading}

/-- An element of a document in transit holds a text that cannot be taken apart under a property for
addresses. -/
def Tears (p : Preset) (fields : List (String × Json)) (f : Fault) : Prop :=
  (∃ item ∈ (elements fields "nodes").1, ∃ n, Node.decode item = .ok n ∧
    (Mutation.addNode n).Tears p f) ∨
  ∃ item ∈ (elements fields "edges").1, ∃ e, Edge.decode item = .ok e ∧
    (Mutation.addEdge e).Tears p f

theorem loadElement_stops (hp : p.WellFormed) (hstate : Underway p state) {α : Type} {kind : String}
    {decode : Json → Schema.Decoded α} {mutation? : α → Option Mutation} {item : Json × Nat} :
    StopsOnly (loadElement p kind decode mutation? state item) fun f =>
      ∃ element m, decode item.1 = .ok element ∧ mutation? element = some m ∧
        ∃ leaf ∈ m.leaves, leaf.Tears p f := by
  intro f h
  unfold loadElement at h
  split at h
  next => simp at h
  next element hdecode =>
    split at h
    next m hm =>
      unfold stageAt at h
      split at h
      next => simp at h
      next => simp at h
      next draft f' hstage =>
        rw [Except.error.inj h] at hstage
        have hchecked := hstate.2.toConforms.checked
        exact ⟨element, m, hdecode, hm, Draft.tears_of_stage hp hchecked hstage⟩
    next => simp at h

/-- Elements are read one after another, each into the draft that the ones before have left. -/
theorem loadElements_stops (hp : p.WellFormed) (hstate : Underway p state) {α : Type} {kind : String}
    {decode : Json → Schema.Decoded α} {mutation? : α → Option Mutation}
    {items : List (Json × Nat)} :
    StopsOnly (items.foldlM (loadElement p kind decode mutation?) state) fun f =>
      ∃ item ∈ items, ∃ element m, decode item.1 = .ok element ∧ mutation? element = some m ∧
        ∃ leaf ∈ m.leaves, leaf.Tears p f := by
  refine StopsOnly.foldlM (P := Underway p) (fun item hitem state hstate => ⟨?_, ?_⟩) hstate
  · exact (loadElement_stops hp hstate).imp fun f hf => ⟨item, hitem, hf⟩
  · exact fun _ h => loadElement_keeps h hstate

/-- Loading stops only at an element that tears; whatever else is wrong is reported. -/
theorem load_stops (hp : p.WellFormed) (v : Json) :
    StopsOnly (load p v) fun f => ∃ fields, v = .obj fields ∧ Tears p fields f := by
  unfold load
  split
  next fields =>
    have hblank : Underway p (Draft.start (Document.blank p (titleOf (metadataFields fields).1)),
        (metadataFields fields).2 ++ presetMismatch p (metadataFields fields).1 ++
          (elements fields "nodes").2) :=
      ⟨Draft.recorded_start _, Document.sound_blank (titleOf_ne_empty _)⟩
    refine StopsOnly.bind ((loadElements_stops hp hblank).imp ?_) fun mid hmid => ?_
    · rintro f ⟨item, hitem, n, m, hdecode, hm, leaf, hleaf, htears⟩
      obtain rfl : Mutation.addNode n = m := Option.some.inj hm
      rw [Mutation.leaves_of_single rfl, List.mem_singleton] at hleaf
      have hmem := List.fst_mem_of_mem_zipIdx hitem
      exact ⟨fields, rfl, .inl ⟨item.1, hmem, n, hdecode, hleaf ▸ htears⟩⟩
    have hmid : Underway p mid := foldlM_induct loadElement_keeps hmid hblank
    have hnext : Underway p (mid.1, mid.2 ++ (elements fields "edges").2) := hmid
    refine StopsOnly.bind ((loadElements_stops hp hnext).imp ?_) fun _ _ => .ok _
    rintro f ⟨item, hitem, e, m, hdecode, hm, leaf, hleaf, htears⟩
    obtain rfl : Mutation.addEdge e = m := by
      unfold authored? at hm
      split at hm
      · simp at hm
      · exact Option.some.inj hm
    rw [Mutation.leaves_of_single rfl, List.mem_singleton] at hleaf
    have hmem := List.fst_mem_of_mem_zipIdx hitem
    exact ⟨fields, rfl, .inr ⟨item.1, hmem, e, hdecode, hleaf ▸ htears⟩⟩
  next => exact .ok _

end Exchange

namespace Preset

section Example

/-- A candidate with pages that hold a link. -/
def linkedPages : Json :=
  .obj [("id", .str "web"), ("name", .str "Web"), ("version", .str "2.0.0"),
    ("nodeTypes", .arr [.obj [("id", .str "page"), ("name", .str "Page"),
      ("properties", .arr [.obj [("id", .str "link"), ("name", .str "Link"), ("type", .str "url")]]),
      ("style", .obj [("color", .str "#000000")])]])]

def pagePreset : Preset :=
  { id := "web", name := "Web", version := "2.0.0"
    nodeTypes := [{ id := "page", name := "Page", style := { color := "#000000" }
                    properties := [{ id := "link", name := "Link", kind := .url }] }] }

theorem linkedPages_accepted : Audit.validate linkedPages = .ok (.ok pagePreset) := by
  decide +kernel

/-- An empty store of the preset. -/
def pageStore : Store :=
  { preset := pagePreset, document := .blank pagePreset
    history := { limit := 100, limit_pos := Behavior.historyLimit_pos }, log := { limit := 5 } }

/-- A page whose link opens a bracket that it does not close. -/
def brokenPage : Node :=
  { id := "a", typeId := "page", properties := .ofEntries [("link", .str "http://[")] }

/-- A document in transit that holds the page. -/
def brokenPages : Json := .obj [("nodes", .arr [brokenPage.toJson])]

theorem pageStore_valid : pageStore.document.Valid pagePreset :=
  (Document.sound_blank (by decide)).valid

theorem apply_brokenPage : (pageStore.apply (.addNode brokenPage)).2 =
    .error (.fault (.malformed "Invalid IPv6 URL")) := by
  decide +kernel

theorem load_brokenPages : Exchange.load pagePreset brokenPages =
    .error (.malformed "Invalid IPv6 URL") := by
  decide +kernel

end Example

/-- A mutation of a valid document of an accepted preset is accepted or refused, and a document in
transit is loaded or reported on, unless a text that cannot be taken apart is written under a
property for addresses; that is a fault, which leaves the store as it was. All other values, of
whatever shape, are answered by the definitions and rules of the preset with acceptance or with a
refusal that names the property. -/
theorem answers_or_tears {candidate : Json} {p : Preset}
    (accepted : Audit.validate candidate = .ok (.ok p)) :
    (∀ (s : Store) (m : Mutation), s.preset = p → s.document.Valid p →
      (∃ changed, (s.apply m).2 = .ok changed) ∨ (∃ r, (s.apply m).2 = .error (.rejected r)) ∨
      ∃ f, (s.apply m).2 = .error (.fault f) ∧ (s.apply m).1 = s ∧
        ∃ leaf ∈ m.leaves, leaf.Tears p f) ∧
    (∀ v, (∃ answer, Exchange.load p v = .ok answer) ∨
      ∃ f fields, Exchange.load p v = .error f ∧ v = .obj fields ∧ Exchange.Tears p fields f) ∧
    (∀ t ∈ p.nodeTypes, ∀ element properties,
      StopsOnly (checkProperties element t.properties t.rules properties)
        (PropertyStop element t.properties properties)) ∧
    ∀ r ∈ p.relationships, ∀ element properties,
      StopsOnly (checkProperties element r.properties [] properties)
        (PropertyStop element r.properties properties) := by
  have hwell := Audit.wellFormed_of_validate accepted
  refine ⟨?_, ?_, ?_, ?_⟩
  · rintro s m rfl hvalid
    cases happly : (s.apply m).2 with
    | ok changed => exact .inl ⟨changed, rfl⟩
    | error stop =>
      cases stop with
      | rejected r => exact .inr (.inl ⟨r, rfl⟩)
      | fault f =>
        obtain ⟨htears, hsame⟩ := Store.tears_of_apply hwell hvalid.toConforms.checked happly
        exact .inr (.inr ⟨f, rfl, hsame, htears⟩)
  · intro v
    cases hload : Exchange.load p v with
    | ok answer => exact .inl ⟨answer, rfl⟩
    | error f =>
      obtain ⟨fields, hfields, htears⟩ := Exchange.load_stops hwell v f hload
      exact .inr ⟨f, fields, rfl, hfields, htears⟩
  · intro t ht element properties
    exact checkProperties_stops fun r hr => ((hwell.types t ht).rules r hr).2
  · intro r _ element properties
    exact checkProperties_stops (by simp)

/-- The open bracket is answered with a fault, where an address of another kind would be refused. -/
theorem brokenPage_not_refused :
    Audit.validate linkedPages = .ok (.ok pagePreset) ∧ pageStore.document.Valid pagePreset ∧
      (∀ changed, (pageStore.apply (.addNode brokenPage)).2 ≠ .ok changed) ∧
      (∀ r, (pageStore.apply (.addNode brokenPage)).2 ≠ .error (.rejected r)) ∧
      ∀ answer, Exchange.load pagePreset brokenPages ≠ .ok answer := by
  rw [apply_brokenPage, load_brokenPages]
  exact ⟨linkedPages_accepted, pageStore_valid, by simp, by simp, by simp⟩

theorem answers_or_tears_brokenPage :
    Audit.validate linkedPages = .ok (.ok pagePreset) ∧ pageStore.document.Valid pagePreset ∧
      (pageStore.apply (.addNode brokenPage)).1 = pageStore ∧
      (Mutation.addNode brokenPage).Tears pagePreset (.malformed "Invalid IPv6 URL") ∧
      ∃ fields, brokenPages = .obj fields ∧
        Exchange.Tears pagePreset fields (.malformed "Invalid IPv6 URL") := by
  obtain ⟨happly, hload, _⟩ := answers_or_tears linkedPages_accepted
  refine ⟨linkedPages_accepted, pageStore_valid, ?_⟩
  obtain ⟨_, h⟩ | ⟨_, h⟩ | ⟨f, hf, hsame, leaf, hleaf, htears⟩ :=
    happly pageStore (.addNode brokenPage) rfl pageStore_valid
  · exact nomatch apply_brokenPage.symm.trans h
  · exact absurd (apply_brokenPage.symm.trans h) (by simp)
  obtain ⟨_, h⟩ | ⟨g, fields, hg, hfields, hfieldsTear⟩ := hload brokenPages
  · exact nomatch load_brokenPages.symm.trans h
  have hf : Fault.malformed "Invalid IPv6 URL" = f := by simpa using apply_brokenPage.symm.trans hf
  have hg : Fault.malformed "Invalid IPv6 URL" = g := by simpa using load_brokenPages.symm.trans hg
  rw [Mutation.leaves_of_single rfl, List.mem_singleton] at hleaf
  exact ⟨hsame, hf ▸ hleaf ▸ htears, fields, hfields, hg ▸ hfieldsTear⟩

end Preset

end GraphWorkbench
