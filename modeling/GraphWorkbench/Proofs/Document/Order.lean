import GraphWorkbench.Proofs.Document.Entering
import GraphWorkbench.Proofs.Document.Reachable
import GraphWorkbench.Proofs.Preset.Audit
/-!
The order in which edges come. Of two edges each is checked against the other in one of the two
orders, and nearly always the check comes to the same; so edges that can be added one by one can be
added in any order. The exception are relationships that admit one edge to each target and have no
direction: an edge is refused when it points at an end of an earlier one, but not when an earlier one
points at its source.
-/
namespace GraphWorkbench

open Outcome

namespace Relationship

variable {r : Relationship} {e f : Edge} {others : List Edge} {countInferred : Bool}

/-- Two edges that point at different nodes, of which one points at the source of the other and the
other does not point back; of a relationship to one edge for each target, where direction does not
count. -/
def Lopsided (r : Relationship) (e f : Edge) : Prop :=
  r.multiplicity = .oneToMany ∧ r.directionality ≠ .directed ∧ e.target ≠ f.target ∧
    ¬ (e.target = f.source ↔ f.target = e.source)

/-- Two edges clash in both orders or in neither, unless they are lopsided. -/
theorem clashes_comm_iff : r.clashes e f = r.clashes f e ↔ ¬ r.Lopsided e f := by
  unfold clashes Lopsided Edge.touches
  cases r.multiplicity with
  | manyToMany => simp
  | oneToOne => cases r.directionality <;> grind
  | oneToMany => cases r.directionality <;> grind

/-- An edge has room beside one more edge of its relationship when the two do not clash. -/
theorem checkMultiplicity_cons (type : f.typeId = r.id) (apart : f.id ≠ e.id)
    (authored : f.inferred = false) :
    checkMultiplicity r e (f :: others) countInferred = .ok () ↔
      r.clashes e f = false ∧ checkMultiplicity r e others countInferred = .ok () := by
  have hcounts : (f.typeId == r.id && f.id != e.id && (countInferred || !f.inferred)) = true := by
    simp [type, apart, authored]
  unfold checkMultiplicity
  simp only [List.filter_cons, hcounts, if_true, List.any_cons]
  cases r.clashes e f <;> simp

/-- Two edges of a relationship that have room one by one have room together, the second after the
first, exactly when they have it the other way round; unless they are lopsided, and then they have
not. -/
theorem checkMultiplicity_comm_iff (eType : e.typeId = r.id) (fType : f.typeId = r.id)
    (eAuthored : e.inferred = false) (fAuthored : f.inferred = false) (apart : e.id ≠ f.id)
    (eRoom : checkMultiplicity r e others countInferred = .ok ())
    (fRoom : checkMultiplicity r f others countInferred = .ok ()) :
    (checkMultiplicity r e (f :: others) countInferred = .ok () ↔
      checkMultiplicity r f (e :: others) countInferred = .ok ()) ↔ ¬ r.Lopsided e f := by
  rw [checkMultiplicity_cons fType apart.symm fAuthored, checkMultiplicity_cons eType apart eAuthored,
    ← clashes_comm_iff]
  simp only [eRoom, fRoom, and_true]
  cases r.clashes e f <;> cases r.clashes f e <;> simp

end Relationship

namespace Document

variable {p : Preset} {d : Document} {e : Edge} {es es' : List Edge}

/-- All that has to be true of edges and a document for the edges to be added in their order. -/
structure Receives (p : Preset) (d : Document) (es : List Edge) : Prop where
  authored : ∀ e ∈ es, e.inferred = false
  fresh : ∀ e ∈ es, d.edges.has e.id = false
  distinct : (es.map Edge.id).Nodup
  room : d.edges.size + es.length ≤ p.behavior.maxEdges
  admitted : ∀ e ∈ es, p.AdmitsEdge d.nodes e
  beside : ∀ o ∈ d.edges.values, ∀ e ∈ es, p.Bears o e
  among : es.Pairwise p.Bears

/-- Only the edges among themselves can mind their order. -/
theorem Receives.perm (h : d.Receives p es) (same : es.Perm es')
    (turns : ∀ e ∈ es, ∀ f ∈ es, p.Bears e f → p.Bears f e) : d.Receives p es' := by
  have hmem : ∀ e, e ∈ es' ↔ e ∈ es := fun e => same.mem_iff.symm
  have hlength : es'.length = es.length := same.length_eq.symm
  refine ⟨?_, ?_, ?_, ?_, ?_, ?_, ?_⟩
  · exact fun e he => h.authored e ((hmem e).mp he)
  · exact fun e he => h.fresh e ((hmem e).mp he)
  · exact (same.map Edge.id).nodup_iff.mp h.distinct
  · exact hlength ▸ h.room
  · exact fun e he => h.admitted e ((hmem e).mp he)
  · exact fun o ho e he => h.beside o ho e ((hmem e).mp he)
  · -- what is borne in both orders is a symmetric relation, which no order of the list matters to
    let Both (e f : Edge) : Prop := p.Bears e f ∧ p.Bears f e
    have hboth : es.Pairwise Both := by
      apply h.among.imp_of_mem
      intro e f he hf hbears
      exact ⟨hbears, turns e he f hf hbears⟩
    have hturned : es'.Pairwise Both := by
      apply (same.pairwise_iff _).mp hboth
      exact fun hef => ⟨hef.2, hef.1⟩
    exact hturned.imp And.left

/-- What further edges are checked against: edges that go by their keys and are authored. -/
structure Tidy (p : Preset) (d : Document) : Prop where
  edgeKeys : ∀ entry ∈ d.edges.entries, entry.2.id = entry.1
  authored : ∀ e ∈ d.edges.values, e.inferred = false
  edgeRoom : d.edges.size ≤ p.behavior.maxEdges

theorem Conforms.tidy (h : d.Conforms p) : d.Tidy p := ⟨h.edgeKeys, h.authored, h.edgeRoom⟩

theorem Tidy.fresh_id (h : d.Tidy p) {id : String} (fresh : d.edges.has id = false) :
    ∀ o ∈ d.edges.values, o.id ≠ id := by
  intro o ho hid
  obtain ⟨key, hentry⟩ := Table.mem_values.mp ho
  have hkey : o.id = key := h.edgeKeys _ hentry
  have hmem : id ∈ d.edges.keys := by
    rw [← hid, hkey]
    exact List.mem_map_of_mem hentry
  exact Table.has_eq_false_iff.mp fresh hmem

theorem Tidy.put (h : d.Tidy p) (authored : e.inferred = false) (fresh : d.edges.has e.id = false)
    (room : d.edges.size < p.behavior.maxEdges) :
    Tidy p { d with edges := d.edges.put e.id e } := by
  refine ⟨?_, ?_, ?_⟩
  · intro entry hentry
    rcases Entries.mem_put hentry with rfl | hold
    · rfl
    · exact h.edgeKeys entry hold
  · intro o ho
    rcases Table.mem_values_put ho with rfl | hold
    · exact authored
    · exact h.authored o hold
  · have hsize : (d.edges.put e.id e).size = d.edges.size + 1 := Table.size_put_new fresh
    change (d.edges.put e.id e).size ≤ p.behavior.maxEdges
    omega

theorem receives_nil (h : d.Tidy p) : d.Receives p [] where
  authored := by simp
  fresh := by simp
  distinct := by simp
  room := by simpa using h.edgeRoom
  admitted := by simp
  beside := by simp
  among := .nil

end Document

namespace Draft

variable {p : Preset} {d : Document} {e : Edge} {es : List Edge}

theorem edgeCheck_eq_ok_iff (tidy : d.Tidy p) : edgeCheck p d e = .ok () ↔
    e.inferred = false ∧ d.edges.has e.id = false ∧ d.edges.size < p.behavior.maxEdges ∧
      p.AdmitsEdge d.nodes e ∧ ∀ o ∈ d.edges.values, p.Bears o e := by
  unfold edgeCheck
  cases hinferred : e.inferred with
  | true => simp [throw_bind]
  | false =>
    cases hfresh : d.edges.has e.id with
    | true => simp [throw_bind]
    | false =>
      have hchecked : p.checkEdge d.nodes d.edges e = .ok () ↔
          p.AdmitsEdge d.nodes e ∧ ∀ o ∈ d.edges.values, p.Bears o e :=
        Preset.checkEdge_eq_ok_iff (tidy.fresh_id hfresh) tidy.authored
      simp only [Bool.false_eq_true, if_false, bind_eq_ok, Preset.checkEdgeRoom_eq_ok, hchecked,
        true_and, exists_const]

/-- What is received after another edge is received without it, as far as it is about the others. -/
theorem receives_of_cons (h : d.Receives p (e :: es)) :
    Document.Receives p { d with edges := d.edges.put e.id e } es := by
  have hfresh := List.forall_mem_cons.mp h.fresh
  have hdistinct := List.nodup_cons.mp h.distinct
  have hamong := List.pairwise_cons.mp h.among
  have hsize : (d.edges.put e.id e).size = d.edges.size + 1 := Table.size_put_new hfresh.1
  refine ⟨(List.forall_mem_cons.mp h.authored).2, ?_, hdistinct.2, ?_,
    (List.forall_mem_cons.mp h.admitted).2, ?_, hamong.2⟩
  · -- the ids still to come are those of other edges
    intro f hf
    have hother : f.id ≠ e.id := fun same => hdistinct.1 (same ▸ List.mem_map_of_mem hf)
    rw [← Bool.not_eq_true, Table.has_put]
    simp [hother, hfresh.2 f hf]
  · have hroom := h.room
    rw [List.length_cons] at hroom
    change (d.edges.put e.id e).size + es.length ≤ p.behavior.maxEdges
    omega
  · -- beside the edges there were, or beside the one that has just come
    intro o ho f hf
    rcases Table.mem_values_put ho with rfl | hold
    · exact hamong.1 f hf
    · exact h.beside o hold f (List.mem_cons_of_mem _ hf)

/-- What is received after another edge is received with it. -/
theorem receives_cons (authored : e.inferred = false) (fresh : d.edges.has e.id = false)
    (admitted : p.AdmitsEdge d.nodes e) (bears : ∀ o ∈ d.edges.values, p.Bears o e)
    (h : Document.Receives p { d with edges := d.edges.put e.id e } es) :
    d.Receives p (e :: es) := by
  have hvalues : (d.edges.put e.id e).values = d.edges.values ++ [e] := Table.values_put_new fresh
  have hsize : (d.edges.put e.id e).size = d.edges.size + 1 := Table.size_put_new fresh
  -- an id that is new after the first edge is not the id of that edge, and was new before it
  have hothers : ∀ f ∈ es, f.id ≠ e.id ∧ d.edges.has f.id = false := by
    intro f hf
    have hnew := h.fresh f hf
    rw [← Bool.not_eq_true, Table.has_put, not_or, Bool.not_eq_true] at hnew
    exact hnew
  have hbeside : ∀ o, o ∈ d.edges.values ∨ o = e → ∀ f ∈ es, p.Bears o f := by
    intro o ho f hf
    apply h.beside o _ f hf
    change o ∈ (d.edges.put e.id e).values
    simpa [hvalues] using ho
  refine ⟨List.forall_mem_cons.mpr ⟨authored, h.authored⟩,
    List.forall_mem_cons.mpr ⟨fresh, fun f hf => (hothers f hf).2⟩, ?_, ?_,
    List.forall_mem_cons.mpr ⟨admitted, h.admitted⟩, ?_, ?_⟩
  · refine List.nodup_cons.mpr ⟨?_, h.distinct⟩
    intro hmem
    obtain ⟨f, hf, hid⟩ := List.mem_map.mp hmem
    exact (hothers f hf).1 hid
  · have hlater : (d.edges.put e.id e).size + es.length ≤ p.behavior.maxEdges := h.room
    rw [List.length_cons]
    omega
  · intro o ho
    exact List.forall_mem_cons.mpr ⟨bears o ho, hbeside o (.inl ho)⟩
  · exact List.pairwise_cons.mpr ⟨hbeside e (.inr rfl), h.among⟩

/-- A document receives edges when it takes the first one and then receives the others. -/
theorem receives_cons_iff (tidy : d.Tidy p) : d.Receives p (e :: es) ↔
    edgeCheck p d e = .ok () ∧ Document.Receives p { d with edges := d.edges.put e.id e } es := by
  rw [edgeCheck_eq_ok_iff tidy]
  constructor
  · intro h
    have hroom := h.room
    rw [List.length_cons] at hroom
    have hmem : e ∈ e :: es := List.mem_cons_self
    exact ⟨⟨h.authored e hmem, h.fresh e hmem, by omega, h.admitted e hmem,
      fun o ho => h.beside o ho e hmem⟩, receives_of_cons h⟩
  · rintro ⟨⟨hauthored, hfresh, _, hadmitted, hbears⟩, h⟩
    exact receives_cons hauthored hfresh hadmitted hbears h

end Draft

namespace Store

variable {s : Store} {e : Edge} {es es' : List Edge}

/-- Whether edges can be added to a store one by one. -/
def takesAll (s : Store) : List Edge → Bool
  | [] => true
  | e :: rest => match s.apply (.addEdge e) with
    | (s', .ok _) => s'.takesAll rest
    | (_, .error _) => false

theorem takesAll_cons_of_stop {stop : Stop}
    (h : Draft.edgeCheck s.preset s.document e = .error stop) : s.takesAll (e :: es) = false := by
  have hstage : Draft.plan s.preset s.document (.addEdge e) = .error stop := by
    rw [Draft.plan, Draft.stage_of_single rfl, Draft.perform, Draft.addEdge_eq]
    simp [Draft.start, h, Draft.attempt, bind, Except.bind]
  obtain ⟨log, happly⟩ := apply_of_stop hstage
  rw [takesAll, happly]

theorem takesAll_cons_of_ok (es : List Edge)
    (h : Draft.edgeCheck s.preset s.document e = .ok ()) :
    ∃ s' : Store, s'.preset = s.preset ∧
      s'.document = { s.document with edges := s.document.edges.put e.id e } ∧
      s.takesAll (e :: es) = s'.takesAll es := by
  have fresh := Draft.fresh_of_edgeCheck h
  have hplan : Draft.plan s.preset s.document (.addEdge e) =
      .ok ([.edge (.insert e.id s.document.edges.size e)],
        { s.document with edges := s.document.edges.put e.id e }) := by
    rw [Draft.plan, Draft.stage_of_single rfl, Draft.perform, Draft.addEdge_eq]
    have hinsert := Draft.insertEdge_eq (d := Draft.start s.document) (e := e) fresh
    simp only [Draft.start] at hinsert ⊢
    rw [h, ok_bind, hinsert]
    rfl
  have happly := apply_of_ne_nil hplan (List.cons_ne_nil _ _)
  have htakes : s.takesAll (e :: es) = (s.apply (.addEdge e)).1.takesAll es := by
    rw [takesAll, happly]
  refine ⟨(s.apply (.addEdge e)).1, ?_, ?_, htakes⟩
  · rw [happly]
    rfl
  · rw [happly]
    rfl

/-- Edges can be added one by one exactly when the document receives them. -/
theorem takesAll_iff (tidy : s.document.Tidy s.preset) :
    s.takesAll es = true ↔ s.document.Receives s.preset es := by
  induction es generalizing s with
  | nil => exact iff_of_true rfl (Document.receives_nil tidy)
  | cons e rest ih =>
    -- a document that has taken a checked edge is tidy again, so the others meet what this one met
    rw [Draft.receives_cons_iff tidy]
    cases hcheck : Draft.edgeCheck s.preset s.document e with
    | error stop => simp [takesAll_cons_of_stop hcheck]
    | ok u =>
      obtain ⟨s', hpreset, hdocument, htakes⟩ := takesAll_cons_of_ok rest hcheck
      have hchecked := (Draft.edgeCheck_eq_ok_iff tidy).mp hcheck
      have htidy : s'.document.Tidy s'.preset := by
        rw [hpreset, hdocument]
        exact tidy.put hchecked.1 hchecked.2.1 hchecked.2.2.1
      rw [htakes, ih htidy, hpreset, hdocument]
      exact (and_iff_right rfl).symm

section Example

/-- A candidate in which each host hangs on one other. A hanger has no direction. -/
def hangingHosts : Json :=
  .obj [("id", .str "net"), ("name", .str "Net"), ("version", .str "2.0.0"),
    ("nodeTypes", .arr [.obj [("id", .str "host"), ("name", .str "Host"),
      ("style", .obj [("color", .str "#000000")])]]),
    ("relationships", .arr [.obj [("id", .str "hang"), ("name", .str "Hang"),
      ("sourceTypes", .arr [.str "host"]), ("targetTypes", .arr [.str "host"]),
      ("multiplicity", .str "one-to-many"), ("directionality", .str "undirected")]])]

def hang : Relationship :=
  { id := "hang", name := "Hang", sourceTypes := ["host"], targetTypes := ["host"]
    multiplicity := .oneToMany, directionality := .undirected }

def hangingPreset : Preset :=
  { id := "net", name := "Net", version := "2.0.0"
    nodeTypes := [{ id := "host", name := "Host", style := { color := "#000000" } }]
    relationships := [hang] }

theorem hangingHosts_accepted : Audit.validate hangingHosts = .ok (.ok hangingPreset) := by
  decide +kernel

/-- Three hosts. -/
def looseHosts : Store :=
  grown hangingPreset [.addNode { id := "a", typeId := "host" },
    .addNode { id := "b", typeId := "host" }, .addNode { id := "c", typeId := "host" }]

def fromAToB : Edge := { id := "ab", typeId := "hang", source := "a", target := "b" }

def fromAToC : Edge := { id := "ac", typeId := "hang", source := "a", target := "c" }

def fromBToC : Edge := { id := "bc", typeId := "hang", source := "b", target := "c" }

end Example

/-- Edges that can be added to a valid document one by one can be added in any order, as long as no
two of them are lopsided; and of two edges of a relationship that have room one by one, the check of
multiplicity comes to the same for the first beside the second and for the second beside the first
exactly when they are not lopsided. -/
theorem takesAll_perm (s : Store) (valid : s.document.Valid s.preset) :
    (∀ (r : Relationship) (e f : Edge) (others : List Edge) (countInferred : Bool),
      e.typeId = r.id → f.typeId = r.id → e.inferred = false → f.inferred = false → e.id ≠ f.id →
      checkMultiplicity r e others countInferred = .ok () →
      checkMultiplicity r f others countInferred = .ok () →
      ((checkMultiplicity r e (f :: others) countInferred = .ok () ↔
        checkMultiplicity r f (e :: others) countInferred = .ok ()) ↔ ¬ r.Lopsided e f)) ∧
    ∀ es es' : List Edge, es.Perm es' →
      (∀ e ∈ es, ∀ f ∈ es, f.typeId = e.typeId → ∀ r, s.preset.ruling? e.typeId = some r →
        ¬ r.Lopsided e f) →
      (s.takesAll es = true ↔ s.takesAll es' = true) := by
  constructor
  · intro r e f others countInferred eType fType eAuthored fAuthored apart eRoom fRoom
    exact Relationship.checkMultiplicity_comm_iff eType fType eAuthored fAuthored apart eRoom fRoom
  · intro es es' perm level
    -- edges of two relationships never mind each other, and those of one are not lopsided
    have hturns : ∀ e ∈ es, ∀ f ∈ es, s.preset.Bears e f → s.preset.Bears f e := by
      intro e he f hf hbears htype r hr
      have hsame : s.preset.ruling? f.typeId = some r := htype ▸ hr
      have hcomm : r.clashes f e = r.clashes e f :=
        Relationship.clashes_comm_iff.mpr (level f hf e he htype r hsame)
      rw [← hcomm]
      exact hbears htype.symm r hsame
    have hturned : ∀ e ∈ es', ∀ f ∈ es', s.preset.Bears e f → s.preset.Bears f e := by
      intro e he f hf
      exact hturns e (perm.mem_iff.mpr he) f (perm.mem_iff.mpr hf)
    have htidy := valid.toConforms.tidy
    rw [takesAll_iff htidy, takesAll_iff htidy]
    constructor
    · exact fun h => h.perm perm hturns
    · exact fun h => h.perm perm.symm hturned

/-- Two edges that share their source have room in both orders. -/
theorem takesAll_perm_looseHosts :
    looseHosts.document.Valid looseHosts.preset ∧
      [fromAToB, fromAToC].Perm [fromAToC, fromAToB] ∧ ¬ hang.Lopsided fromAToB fromAToC ∧
      (checkMultiplicity hang fromAToB [fromAToC] false = .ok () ↔
        checkMultiplicity hang fromAToC [fromAToB] false = .ok ()) ∧
      looseHosts.takesAll [fromAToB, fromAToC] = true ∧
      looseHosts.takesAll [fromAToC, fromAToB] = true := by
  have hvalid : looseHosts.document.Valid looseHosts.preset := by
    rw [looseHosts, preset_grown]
    exact valid_grown _ _
  have hperm : [fromAToB, fromAToC].Perm [fromAToC, fromAToB] := .swap _ _ _
  have hlevel : ∀ e ∈ [fromAToB, fromAToC], ∀ f ∈ [fromAToB, fromAToC], ∀ r : Relationship,
      ¬ r.Lopsided e f := by
    simp [Relationship.Lopsided, fromAToB, fromAToC]
  have htakes : looseHosts.takesAll [fromAToB, fromAToC] = true := by decide +kernel
  obtain ⟨hpairs, horders⟩ := takesAll_perm looseHosts hvalid
  refine ⟨hvalid, hperm, hlevel _ (by simp) _ (by simp) _, ?_, htakes, ?_⟩
  · exact (hpairs hang fromAToB fromAToC [] false rfl rfl rfl rfl (by decide) rfl rfl).mpr
      (hlevel _ (by simp) _ (by simp) _)
  · exact (horders _ _ hperm fun e he f hf _ r _ => hlevel e he f hf r).mp htakes

/-- A host from which another one is to hang may not be hung up any more, but one that hangs may have
others hung from it: so only one of the two orders will do. -/
theorem takesAll_lopsided :
    Audit.validate hangingHosts = .ok (.ok hangingPreset) ∧
      looseHosts.document.Valid hangingPreset ∧ hangingPreset.ruling? "hang" = some hang ∧
      ¬ (checkMultiplicity hang fromBToC [fromAToB] false = .ok () ↔
        checkMultiplicity hang fromAToB [fromBToC] false = .ok ()) ∧
      looseHosts.takesAll [fromAToB, fromBToC] = true ∧
      looseHosts.takesAll [fromBToC, fromAToB] = false := by
  refine ⟨hangingHosts_accepted, valid_grown _ _, rfl, ?_, by decide +kernel, by decide +kernel⟩
  decide

end Store

end GraphWorkbench
