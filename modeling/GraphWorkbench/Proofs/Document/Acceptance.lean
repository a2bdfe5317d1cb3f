import GraphWorkbench.Document.Constraint
import GraphWorkbench.Proofs.Outcome
import GraphWorkbench.Proofs.Place
/-!
What the checks of nodes and edges come to. The conditions are stated on their own, property by
property and end by end; a check passes exactly when its condition holds.
-/
namespace GraphWorkbench

open Outcome

/-- The value of a property is one that its definition admits; a vacant one will do unless the
property is required. -/
def Property.Accepts (q : Property) (properties : Table Json) : Prop :=
  match given? properties q.id with
  | none => q.required = false
  | some v => q.kind.admits (q.options.getD []) v = .ok true

/-- A value that is not vacant keeps the rule. -/
def Rule.Accepts (r : Rule) (properties : Table Json) : Prop :=
  ∀ v, given? properties r.property = some v → r.admits v = .ok true

section Properties

variable {element : String} {properties : Table Json}

/-- A test that refuses an element when it fails. -/
theorem refuse_unless_eq_ok {test : Except Fault Bool} {property : String}
    {defect : PropertyDefect} :
    (do if !(← Stop.ofFault test) then refuse element property defect : Except Stop Unit) = .ok () ↔
      test = .ok true := by
  cases test with
  | error f => simp [ofFault_error, bind, Except.bind]
  | ok b => cases b <;> simp [ofFault_ok, ok_bind, pure_eq_ok, refuse]

theorem Property.check_eq_ok_iff {q : Property} :
    q.check element properties = .ok () ↔ q.Accepts properties := by
  unfold Property.check Property.Accepts
  cases given? properties q.id with
  | none => cases q.required <;> simp [pure_eq_ok, refuse]
  | some v => exact refuse_unless_eq_ok

theorem Rule.enforce_eq_ok_iff {r : Rule} :
    r.enforce element properties = .ok () ↔ r.Accepts properties := by
  unfold Rule.enforce Rule.Accepts
  cases given? properties r.property with
  | none => simp [pure_eq_ok]
  | some v =>
    rw [refuse_unless_eq_ok]
    constructor
    · intro h w hw
      rwa [← Option.some.inj hw]
    · exact fun h => h v rfl

theorem checkProperties_eq_ok_iff {definitions : List Property} {rules : List Rule} :
    checkProperties element definitions rules properties = .ok () ↔
      (∀ q ∈ definitions, q.Accepts properties) ∧ ∀ r ∈ rules, r.Accepts properties := by
  have hdefinitions : definitions.forM (Property.check element properties) = .ok () ↔
      ∀ q ∈ definitions, q.Accepts properties := by
    simp only [forM_eq_ok, Property.check_eq_ok_iff]
  have hrules : rules.forM (Rule.enforce element properties) = .ok () ↔
      ∀ r ∈ rules, r.Accepts properties := by
    simp only [forM_eq_ok, Rule.enforce_eq_ok_iff]
  unfold checkProperties
  rw [bind_eq_ok, ← hdefinitions, ← hrules]
  constructor
  · rintro ⟨_, hd, hr⟩
    exact ⟨hd, hr⟩
  · rintro ⟨hd, hr⟩
    exact ⟨(), hd, hr⟩

end Properties

namespace Relationship

variable {r : Relationship} {source target : NodeType} {e f : Edge}

/-- The relationship can lead from one type to another: both are declared as ends of it, and neither
has a list of allowed relationships that leaves it out. -/
structure Leads (r : Relationship) (source target : NodeType) : Prop where
  source_declared : wildcard ∈ r.sourceTypes ∨ source.id ∈ r.sourceTypes
  target_declared : wildcard ∈ r.targetTypes ∨ target.id ∈ r.targetTypes
  outgoing : ∀ names, source.outgoing = some names → r.id ∈ names
  incoming : ∀ names, target.incoming = some names → r.id ∈ names

/-- The relationship can join two types, the other way round too unless it is directed. -/
def Fits (r : Relationship) (source target : NodeType) : Prop :=
  r.Leads source target ∨ (r.directionality ≠ .directed ∧ r.Leads target source)

theorem declares_iff {types : List String} {type : String} :
    declares types type = true ↔ wildcard ∈ types ∨ type ∈ types := by
  simp [declares]

theorem isAllowed_iff {allowed : Option (List String)} {name : String} :
    isAllowed allowed name = true ↔ ∀ names, allowed = some names → name ∈ names := by
  cases allowed <;> simp [isAllowed]

theorem leads_iff : r.leads source target = true ↔ r.Leads source target := by
  unfold leads
  rw [Bool.and_eq_true, Bool.and_eq_true, Bool.and_eq_true, declares_iff, declares_iff,
    isAllowed_iff, isAllowed_iff]
  constructor
  · rintro ⟨⟨⟨hs, ht⟩, ho⟩, hi⟩
    exact ⟨hs, ht, ho, hi⟩
  · rintro ⟨hs, ht, ho, hi⟩
    exact ⟨⟨⟨hs, ht⟩, ho⟩, hi⟩

theorem fits_iff : r.fits source target = true ↔ r.Fits source target := by
  simp [fits, Fits, leads_iff]

/-- Two edges of the relationship may stand side by side. -/
def Permits (r : Relationship) (e f : Edge) : Prop :=
  match r.multiplicity, r.directionality with
  | .manyToMany, _ => True
  | .oneToMany, _ => e.target ≠ f.target
  | .oneToOne, .directed => e.source ≠ f.source ∧ e.target ≠ f.target
  | .oneToOne, _ =>
    e.source ≠ f.source ∧ e.source ≠ f.target ∧ e.target ≠ f.source ∧ e.target ≠ f.target

/-- An edge that does not clash with an earlier one may stand beside it. The converse fails: an edge
that comes later may not point at the source of an earlier one where direction does not count,
though the earlier one may point at its source. -/
theorem permits_of_not_clashes (h : r.clashes f e = false) : r.Permits e f := by
  unfold clashes at h
  unfold Permits
  split at h <;> simp_all [Edge.touches]

theorem Permits.symm (h : r.Permits e f) : r.Permits f e := by
  unfold Permits at h ⊢
  split at h <;> simp_all [eq_comm]

end Relationship

/-- The check of multiplicity refuses at most. -/
theorem checkMultiplicity_ne_fault {r : Relationship} {e : Edge} {others : List Edge}
    {countInferred : Bool} {f : Fault} :
    checkMultiplicity r e others countInferred ≠ .error (.fault f) := by
  unfold checkMultiplicity
  simp only
  split <;> simp

namespace Preset

variable {p : Preset} {nodes nodes' : Table Node} {n : Node} {e : Edge} {r : Relationship}

/-- The node is of a declared type, with properties that pass its definitions and rules. -/
def AdmitsNode (p : Preset) (n : Node) : Prop :=
  ∃ t, p.governing? n.typeId = some t ∧ (∀ q ∈ t.properties, q.Accepts n.properties) ∧
    ∀ r ∈ t.rules, r.Accepts n.properties

/-- Both ends of the edge are there, and of types that the relationship can join. -/
def Joins (p : Preset) (nodes : Table Node) (r : Relationship) (e : Edge) : Prop :=
  ∃ source target sourceType targetType,
    nodes.get? e.source = some source ∧ nodes.get? e.target = some target ∧
    p.governing? source.typeId = some sourceType ∧ p.governing? target.typeId = some targetType ∧
    r.Fits sourceType targetType

/-- The edge is of a declared relationship, which can join its ends and accepts its properties. -/
def AdmitsEdge (p : Preset) (nodes : Table Node) (e : Edge) : Prop :=
  ∃ r, p.ruling? e.typeId = some r ∧ p.Joins nodes r e ∧ ∀ q ∈ r.properties, q.Accepts e.properties

/-- Two edges may stand in one document as far as multiplicity goes. -/
def Permits (p : Preset) (e f : Edge) : Prop :=
  f.typeId = e.typeId → ∀ r, p.ruling? e.typeId = some r → r.Permits e f

/-- An edge may be added after another one as far as multiplicity goes. -/
def Bears (p : Preset) (earlier later : Edge) : Prop :=
  later.typeId = earlier.typeId → ∀ r, p.ruling? later.typeId = some r →
    r.clashes later earlier = false

theorem Permits.symm {e f : Edge} (h : p.Permits e f) : p.Permits f e := by
  intro htype r hr
  exact (h htype.symm r (htype ▸ hr)).symm

theorem Bears.permits {e f : Edge} (h : p.Bears e f) : p.Permits e f := by
  intro htype r hr
  exact Relationship.permits_of_not_clashes (h htype r (htype ▸ hr))

theorem id_of_governing? {id : String} {t : NodeType} (h : p.governing? id = some t) :
    t.id = id := by
  simpa using List.find?_some h

theorem id_of_ruling? {id : String} (h : p.ruling? id = some r) : r.id = id := by
  simpa using List.find?_some h

theorem typeOf_eq_ok {t : NodeType} : p.typeOf n = .ok t ↔ p.governing? n.typeId = some t := by
  unfold typeOf
  split <;> simp_all

theorem relationshipOf_eq_ok : p.relationshipOf e = .ok r ↔ p.ruling? e.typeId = some r := by
  unfold relationshipOf
  split <;> simp_all

theorem checkNodeRoom_eq_ok {count : Nat} {id : String} {u : Unit} :
    p.checkNodeRoom count id = .ok u ↔ count < p.behavior.maxNodes := by
  unfold checkNodeRoom
  split <;> simp <;> omega

theorem checkEdgeRoom_eq_ok {count : Nat} {id : String} {u : Unit} :
    p.checkEdgeRoom count id = .ok u ↔ count < p.behavior.maxEdges := by
  unfold checkEdgeRoom
  split <;> simp <;> omega

theorem endOf_eq_ok {key : String} : endOf nodes e key = .ok n ↔ nodes.get? key = some n := by
  unfold endOf
  split <;> simp_all

theorem checkNode_eq_ok_iff : p.checkNode n = .ok () ↔ p.AdmitsNode n := by
  unfold checkNode AdmitsNode
  simp only [bind_eq_ok, typeOf_eq_ok, checkProperties_eq_ok_iff]

/-- The multiplicity of an edge is checked against every edge of another id and of its relationship,
but for inferred ones where these do not count. -/
theorem checkMultiplicity_eq_ok_iff_bears {edges : List Edge} {countInferred : Bool}
    (ruled : p.ruling? e.typeId = some r) :
    checkMultiplicity r e edges countInferred = .ok () ↔
      ∀ o ∈ edges, o.id ≠ e.id → (countInferred = true ∨ o.inferred = false) → p.Bears o e := by
  have hid : r.id = e.typeId := id_of_ruling? ruled
  unfold checkMultiplicity
  simp only [ite_eq_right_iff, reduceCtorEq, imp_false, Bool.not_eq_true, List.any_eq_false,
    List.mem_filter, Bool.and_eq_true, Bool.or_eq_true, Bool.not_eq_true', bne_iff_ne, beq_iff_eq]
  constructor
  · intro h o ho hother hcounts htype r' hr'
    obtain rfl : r = r' := Option.some.inj (ruled.symm.trans hr')
    exact h o ⟨ho, ⟨htype.symm.trans hid.symm, hother⟩, hcounts⟩
  · rintro h o ⟨ho, ⟨htype, hother⟩, hcounts⟩
    exact h o ho hother hcounts (hid.symm.trans htype.symm) r ruled

/-- Where ids are new and no edge is inferred, the multiplicity of an edge is checked against every
other edge of its relationship. -/
theorem checkMultiplicity_eq_ok_iff {edges : List Edge} (ruled : p.ruling? e.typeId = some r)
    (fresh : ∀ o ∈ edges, o.id ≠ e.id) (authored : ∀ o ∈ edges, o.inferred = false) :
    checkMultiplicity r e edges false = .ok () ↔ ∀ o ∈ edges, p.Bears o e := by
  rw [checkMultiplicity_eq_ok_iff_bears ruled]
  exact forall₂_congr fun o ho => by simp [fresh o ho, authored o ho]

theorem checkEdge_eq_ok_iff {edges : Table Edge} (fresh : ∀ o ∈ edges.values, o.id ≠ e.id)
    (authored : ∀ o ∈ edges.values, o.inferred = false) :
    p.checkEdge nodes edges e = .ok () ↔
      p.AdmitsEdge nodes e ∧ ∀ o ∈ edges.values, p.Bears o e := by
  unfold checkEdge AdmitsEdge Joins
  simp only [bind_eq_ok, endOf_eq_ok, typeOf_eq_ok, relationshipOf_eq_ok]
  constructor
  · rintro ⟨r, ruled, source, hs, target, ht, sourceType, hst, targetType, htt, h⟩
    cases fits : r.fits sourceType targetType with
    | false => simp [fits, throw_bind] at h
    | true =>
      simp only [fits, Bool.not_true, Bool.false_eq_true, if_false, bind_eq_ok,
        checkProperties_eq_ok_iff] at h
      obtain ⟨_, hmultiplicity, accepts, _⟩ := h
      refine ⟨⟨r, ruled, ?_, accepts⟩, ?_⟩
      · exact ⟨source, target, sourceType, targetType, hs, ht, hst, htt,
          Relationship.fits_iff.mp fits⟩
      · exact (checkMultiplicity_eq_ok_iff ruled fresh authored).mp hmultiplicity
  · rintro ⟨⟨r, ruled, joins, accepts⟩, bears⟩
    obtain ⟨source, target, sourceType, targetType, hs, ht, hst, htt, fits⟩ := joins
    refine ⟨r, ruled, source, hs, target, ht, sourceType, hst, targetType, htt, ?_⟩
    have hmultiplicity := (checkMultiplicity_eq_ok_iff ruled fresh authored).mpr bears
    have hproperties : checkProperties e.id r.properties [] e.properties = .ok () :=
      checkProperties_eq_ok_iff.mpr ⟨accepts, by simp⟩
    simp only [Relationship.fits_iff.mpr fits, Bool.not_true, Bool.false_eq_true, if_false,
      hmultiplicity, ok_bind, hproperties]

/-- An edge is joined by tables in which its ends are there and of the same types. -/
theorem Joins.congr (h : p.Joins nodes r e)
    (same : ∀ key n, key = e.source ∨ key = e.target → nodes.get? key = some n →
      ∃ n', nodes'.get? key = some n' ∧ n'.typeId = n.typeId) : p.Joins nodes' r e := by
  obtain ⟨source, target, sourceType, targetType, hs, ht, hst, htt, fits⟩ := h
  obtain ⟨source', hs', hsource'⟩ := same _ _ (.inl rfl) hs
  obtain ⟨target', ht', htarget'⟩ := same _ _ (.inr rfl) ht
  exact ⟨source', target', sourceType, targetType, hs', ht', hsource' ▸ hst, htarget' ▸ htt, fits⟩

theorem AdmitsEdge.congr (h : p.AdmitsEdge nodes e)
    (same : ∀ key n, key = e.source ∨ key = e.target → nodes.get? key = some n →
      ∃ n', nodes'.get? key = some n' ∧ n'.typeId = n.typeId) : p.AdmitsEdge nodes' e := by
  obtain ⟨r, ruled, joins, accepts⟩ := h
  exact ⟨r, ruled, joins.congr same, accepts⟩

end Preset

end GraphWorkbench
