import Mathlib.Data.List.Induction
import GraphWorkbench.Proofs.Inference.Independence
/-!
What one step in a graph tells of its edges. Of the ways that are put in a graph under the same ends
and key only the last one stands; so a step never leads where no edge does, and it leads wherever an
edge does exactly when every way that does not stand has a standing one of its type beside it.
-/
namespace GraphWorkbench

open Outcome

namespace GraphView

variable {p : Preset} {d : Document} {v : GraphView} {e : Edge} {a b l : Link}
  {links given : List Link} {edges derived : List Edge} {s : PathStep}
  {typeId source target node name : String}

/-! What stands of the links that are put in a graph. -/

/-- A link stands among links that are put in one after another when none after it has the same ends
and key. -/
def Stands (given : List Link) (l : Link) : Prop :=
  ∃ earlier later, given = earlier ++ l :: later ∧ ∀ a ∈ later, Link.sameWay a l = false

section Standing

theorem sameWay_iff : Link.sameWay a b = true ↔
    a.source = b.source ∧ a.target = b.target ∧ a.key = b.key := by
  simp [Link.sameWay, and_assoc]

theorem Stands.mem (h : Stands given l) : l ∈ given := by
  obtain ⟨earlier, later, rfl, _⟩ := h
  exact List.mem_append_right _ List.mem_cons_self

theorem stands_concat :
    Stands (given ++ [a]) l ↔ l = a ∨ Stands given l ∧ Link.sameWay a l = false := by
  constructor
  · rintro ⟨earlier, later, hsplit, hlater⟩
    rcases List.eq_nil_or_concat later with rfl | ⟨rest, b, rfl⟩
    · exact .inl (List.append_singleton_inj.mp hsplit).2.symm
    · rw [List.concat_eq_append] at hsplit hlater
      rw [← List.cons_append, ← List.append_assoc, List.append_singleton_inj] at hsplit
      obtain ⟨hgiven, rfl⟩ := hsplit
      rw [List.forall_mem_append] at hlater
      exact .inr ⟨⟨earlier, rest, hgiven, hlater.1⟩, hlater.2 a (List.mem_singleton_self a)⟩
  · rintro (rfl | ⟨⟨earlier, later, rfl, hlater⟩, hother⟩)
    · exact ⟨given, [], rfl, by simp⟩
    · refine ⟨earlier, later ++ [a], by simp, ?_⟩
      exact List.forall_mem_append.mpr ⟨hlater, by simpa using hother⟩

/-- A link that does not stand has given way to one that does. -/
theorem exists_stands_of_mem (hl : l ∈ given) :
    ∃ a, Stands given a ∧ Link.sameWay a l = true := by
  induction given using List.reverseRecOn with
  | nil => exact nomatch hl
  | append_singleton earlier b ih =>
    rcases List.mem_append.mp hl with hold | hnew
    · obtain ⟨a, hstands, hsame⟩ := ih hold
      cases hlast : Link.sameWay b a with
      | false => exact ⟨a, stands_concat.mpr (.inr ⟨hstands, hlast⟩), hsame⟩
      | true =>
        refine ⟨b, stands_concat.mpr (.inl rfl), ?_⟩
        grind [Link.sameWay]
    · obtain rfl := List.mem_singleton.mp hnew
      exact ⟨l, stands_concat.mpr (.inl rfl), by simp [Link.sameWay]⟩

/-- No two links of a list have the same ends and key. -/
def Apart (links : List Link) : Prop := links.Pairwise fun a b => Link.sameWay a b = false

theorem mem_putLink_iff_of_apart (apart : Apart links) :
    b ∈ putLink a links ↔ b = a ∨ b ∈ links ∧ Link.sameWay a b = false := by
  induction links with
  | nil => simp [putLink]
  | cons c rest ih =>
    obtain ⟨hc, hrest⟩ := List.pairwise_cons.mp apart
    rw [putLink]
    split
    next hsame =>
      -- the old link gives way, and no other one has its ends and key
      have hothers : ∀ b ∈ rest, Link.sameWay a b = false := by
        intro b hb
        have hne := hc b hb
        grind [Link.sameWay]
      grind [Link.sameWay]
    next hother =>
      rw [List.mem_cons, ih hrest, List.mem_cons]
      grind [Link.sameWay]

theorem Apart.putLink (apart : Apart links) : Apart (putLink a links) := by
  induction links with
  | nil => exact List.pairwise_singleton _ _
  | cons c rest ih =>
    obtain ⟨hc, hrest⟩ := List.pairwise_cons.mp apart
    rw [GraphView.putLink]
    split
    next hsame =>
      refine List.pairwise_cons.mpr ⟨fun b hb => ?_, hrest⟩
      have hne := hc b hb
      grind [Link.sameWay]
    next hother =>
      refine List.pairwise_cons.mpr ⟨fun b hb => ?_, ih hrest⟩
      rcases mem_putLink hb with rfl | hmem
      · simpa using hother
      · exact hc b hmem

/-- Links put in one after another come to those that stand. -/
theorem mem_foldl_putLink_iff_stands (given : List Link) :
    l ∈ given.foldl (fun links l => putLink l links) [] ↔ Stands given l := by
  -- along the links from the last one back, since a link stands by what comes after it
  have hboth : Apart (given.foldl (fun links l => putLink l links) []) ∧
      ∀ l, l ∈ given.foldl (fun links l => putLink l links) [] ↔ Stands given l := by
    induction given using List.reverseRecOn with
    | nil => exact ⟨List.Pairwise.nil, fun l => ⟨nofun, fun h => nomatch h.mem⟩⟩
    | append_singleton earlier a ih =>
      obtain ⟨hapart, hmem⟩ := ih
      rw [List.foldl_append]
      refine ⟨hapart.putLink, fun l => ?_⟩
      rw [stands_concat, ← hmem]
      exact mem_putLink_iff_of_apart hapart
  exact hboth.2 l

theorem mem_links_ofDocument : l ∈ (ofDocument p d derived).links ↔
    Stands ((d.edges.values ++ derived).flatMap (ways p)) l := by
  unfold ofDocument
  rw [links_foldl_addEdge]
  exact mem_foldl_putLink_iff_stands _

end Standing

/-! A graph has the ends of all its links. -/

/-- Both ends of every link are nodes of the graph. -/
def Closed (v : GraphView) : Prop :=
  ∀ l ∈ v.links, v.nodes.has l.source = true ∧ v.nodes.has l.target = true

section Closing

theorem has_mention : (v.mention name).nodes.has node = true ↔
    node = name ∨ v.nodes.has node = true := by
  unfold mention
  split
  next there =>
    constructor
    · exact .inr
    · rintro (rfl | h)
      · exact there
      · exact h
  next => exact Table.has_put

theorem Closed.addLink (closed : v.Closed) (l : Link) : (v.addLink l).Closed := by
  have hhas : ∀ node, (v.addLink l).nodes.has node = true ↔
      node = l.target ∨ node = l.source ∨ v.nodes.has node = true := by
    intro node
    change ((v.mention l.source).mention l.target).nodes.has node = true ↔ _
    rw [has_mention, has_mention]
  intro a ha
  rw [links_addLink] at ha
  rw [hhas, hhas]
  rcases mem_putLink ha with rfl | hold
  · exact ⟨.inr (.inl rfl), .inl rfl⟩
  · exact (closed a hold).imp (fun h => .inr (.inr h)) fun h => .inr (.inr h)

theorem Closed.addEdge (closed : v.Closed) (e : Edge) : (v.addEdge p e).Closed := by
  have hforth := closed.addLink (forth e)
  unfold GraphView.addEdge
  split
  · split
    · exact hforth
    · exact hforth.addLink _
  · exact hforth

theorem closed_ofDocument (p : Preset) (d : Document) (derived : List Edge) :
    (ofDocument p d derived).Closed :=
  List.foldlRecOn _ _ (fun _ hl => nomatch hl) fun _ hv e _ => hv.addEdge e

theorem has_source_of_way (hl : l ∈ (d.edges.values ++ derived).flatMap (ways p)) :
    (ofDocument p d derived).nodes.has l.source = true := by
  obtain ⟨a, hstands, hsame⟩ := exists_stands_of_mem hl
  have hends := closed_ofDocument p d derived a (mem_links_ofDocument.mpr hstands)
  have hsource : a.source = l.source := by simpa using (sameWay_iff.mp hsame).1
  exact hsource ▸ hends.1

theorem startsOf_of_has (known : v.nodes.has node = true) : v.startsOf node = [node] := if_pos known

end Closing

/-! Steps, and the edges that lead the same way. -/

/-- An edge leads from a node to another one as a step asks for: of its relationship and along it,
against it, or either way. -/
def Adjoins (p : Preset) (edges : List Edge) (s : PathStep) (node name : String) : Prop :=
  ∃ e ∈ edges, (s.direction ≠ .inward ∧ Opens p s.relationship node name e) ∨
    (s.direction ≠ .outward ∧ Opens p s.relationship name node e)

/-- A link leads from a node to another one as a step asks for. -/
def Leads (s : PathStep) (node name : String) (l : Link) : Prop :=
  l.typeId = s.relationship ∧ ((s.direction ≠ .inward ∧ l.source = node ∧ l.target = name) ∨
    (s.direction ≠ .outward ∧ l.source = name ∧ l.target = node))

/-- Each of some ways has a standing one of the same type and ends, if not itself. -/
def Kept (given : List Link) : Prop :=
  ∀ l ∈ given, ∃ a, Stands given a ∧ a.typeId = l.typeId ∧ a.source = l.source ∧
    a.target = l.target

section Steps

theorem mem_step_iff_leads (known : v.nodes.has node = true) :
    name ∈ v.step s node ↔ ∃ l ∈ v.links, Leads s node name l := by
  rw [mem_step, startsOf_of_has known]
  unfold Linked Leads
  simp only [List.mem_singleton, exists_eq_left]
  grind

theorem exists_way_iff_opens : (∃ l ∈ ways p e, l.typeId = typeId ∧ l.source = source ∧
    l.target = target) ↔ Opens p typeId source target e := by
  unfold Opens
  simp only [mem_ways]
  constructor
  · rintro ⟨l, rfl | ⟨hboth, rfl⟩, rfl, rfl, rfl⟩
    · exact ⟨rfl, .inl ⟨rfl, rfl⟩⟩
    · exact ⟨rfl, .inr ⟨hboth, rfl, rfl⟩⟩
  · rintro ⟨rfl, ⟨rfl, rfl⟩ | ⟨hboth, rfl, rfl⟩⟩
    · exact ⟨forth e, .inl rfl, rfl, rfl, rfl⟩
    · exact ⟨back e, .inr ⟨hboth, rfl⟩, rfl, rfl, rfl⟩

theorem adjoins_iff_leads :
    Adjoins p edges s node name ↔ ∃ l ∈ edges.flatMap (ways p), Leads s node name l := by
  unfold Adjoins Leads
  simp only [← exists_way_iff_opens, List.mem_flatMap]
  grind

/-- Where all ways are kept, the standing ones lead wherever some way does. -/
theorem Kept.exists_stands (kept : Kept given) (hl : l ∈ given) (leads : Leads s node name l) :
    ∃ a, Stands given a ∧ Leads s node name a := by
  obtain ⟨a, hstands, htype, hsource, htarget⟩ := kept l hl
  refine ⟨a, hstands, ?_⟩
  unfold Leads at leads ⊢
  rwa [htype, hsource, htarget]

/-- Ways that do not differ under the same ends and key all stand. -/
theorem Clear.kept (clear : Clear given) : Kept given := by
  intro l hl
  refine ⟨l, ?_, rfl, rfl, rfl⟩
  have hclear : Clear ([] ++ given) := clear
  rw [← mem_foldl_putLink_iff_stands, mem_foldl_putLink hclear]
  exact .inr hl

end Steps

/-- A step leads from a node of the graph of a document and derived edges along the ways that stand;
so it leads nowhere but where an edge does. It leads wherever an edge does exactly when every way has
a standing one of its type and ends; and that is so at least where no edge goes by the id of another
one or by the key of the way back along it. -/
theorem step_adjoins (p : Preset) (d : Document) (derived : List Edge) :
    let v := ofDocument p d derived
    let edges := d.edges.values ++ derived
    let given := edges.flatMap (ways p)
    (∀ node, v.nodes.has node = true → ∀ s name,
      name ∈ v.step s node ↔ ∃ l, Stands given l ∧ Leads s node name l) ∧
    (∀ node, v.nodes.has node = true → ∀ s name,
      name ∈ v.step s node → Adjoins p edges s node name) ∧
    ((∀ node, v.nodes.has node = true → ∀ s name,
      name ∈ v.step s node ↔ Adjoins p edges s node name) ↔ Kept given) ∧
    (Unmistaken edges → Kept given) := by
  intro v edges given
  have hstep : ∀ node, v.nodes.has node = true → ∀ s name,
      name ∈ v.step s node ↔ ∃ l, Stands given l ∧ Leads s node name l := by
    intro node known s name
    rw [mem_step_iff_leads known]
    simp only [v, mem_links_ofDocument, given, edges]
  have hsound : ∀ node, v.nodes.has node = true → ∀ s name,
      name ∈ v.step s node → Adjoins p edges s node name := by
    intro node known s name hname
    obtain ⟨l, hstands, hleads⟩ := (hstep node known s name).mp hname
    exact adjoins_iff_leads.mpr ⟨l, hstands.mem, hleads⟩
  refine ⟨hstep, hsound, ⟨?told, ?kept⟩, fun h => h.clear.kept⟩
  case told =>
    intro told l hl
    -- the step out along the type of the way asks for it, and finds a standing one
    let s : PathStep := { relationship := l.typeId, direction := .outward }
    have hleads : Leads s l.source l.target l := ⟨rfl, .inl ⟨by simp [s], rfl, rfl⟩⟩
    have known : v.nodes.has l.source = true := has_source_of_way hl
    have hname := (told l.source known s l.target).mpr (adjoins_iff_leads.mpr ⟨l, hl, hleads⟩)
    obtain ⟨a, hstands, htype, hends⟩ := (hstep l.source known s l.target).mp hname
    rcases hends with ⟨_, hsource, htarget⟩ | ⟨hdirection, _⟩
    · exact ⟨a, hstands, htype, hsource, htarget⟩
    · exact absurd rfl hdirection
  case kept =>
    intro kept node known s name
    refine ⟨hsound node known s name, fun adjoins => ?_⟩
    obtain ⟨l, hl, hleads⟩ := adjoins_iff_leads.mp adjoins
    exact (hstep node known s name).mpr (kept.exists_stands hl hleads)

end GraphView

namespace Inference

open GraphView

section Example

def cableOut : PathStep := { relationship := "cable", direction := .outward }

/-- A hub and a host with a cable between them, and an edge of a given id by which the hub is said to
reach the host. -/
def cabledHub (id : String) : Document :=
  cabled [.addNode { id := "a", typeId := "hub" }, .addNode { id := "b", typeId := "host" },
    .addEdge { id := "x", typeId := "cable", source := "b", target := "a" },
    .addEdge { id, typeId := "reach", source := "a", target := "b" }]

end Example

/-- On a row of plain ids a cable is followed back, and the derived edge is followed as well. -/
theorem step_adjoins_cabledRow :
    Audit.validate cabling = .ok (.ok cablingPreset) ∧ cabledRow.Valid cablingPreset ∧
      ∃ answer, pass cablingPreset cabledRow [] = .ok answer ∧
        answer.1.map DerivedEdge.id = ["inferred--hops--a--c"] ∧
        let derived := answer.1.map DerivedEdge.toEdge
        let v := ofDocument cablingPreset cabledRow derived
        Unmistaken (cabledRow.edges.values ++ derived) ∧
        v.nodes.has "a" = true ∧ v.nodes.has "c" = true ∧ "b" ∈ v.step cableOut "c" ∧
        "c" ∈ v.step { relationship := "reach", direction := .either } "a" := by
  have hwell := Audit.wellFormed_of_validate cabling_accepted
  have hvalid : cabledRow.Valid cablingPreset := cabled_valid _
  obtain ⟨answer, hanswer, _⟩ := pass_gives hwell hvalid Good.nil
  have hbuilt : Built cablingPreset cabledRow answer.1 := Built.nil.pass hwell hvalid hanswer
  have hunmistaken := hbuilt.unmistaken hvalid cabledRow_plainIds
  -- the theorem asks for the edges that lead the ways in question
  have hcomputed : (pass cablingPreset cabledRow []).toOption.map
      (fun answer => answer.1.map fun e => (e.id, e.relationship, e.source, e.target)) =
        some [("inferred--hops--a--c", "reach", "a", "c")] := by
    decide +kernel
  rw [hanswer] at hcomputed
  obtain ⟨e, hedges, he⟩ := List.map_eq_singleton_iff.mp (Option.some.inj hcomputed)
  simp only [Prod.mk.injEq] at he
  obtain ⟨hid, htype, hsource, htarget⟩ := he
  have hknown : ∀ node ∈ ["a", "c"], (ofDocument cablingPreset cabledRow
      (answer.1.map DerivedEdge.toEdge)).nodes.has node = true := by
    have hview := shows_ofDocument hvalid hbuilt.connects
    intro node hnode
    rw [hview.has_eq]
    revert node
    decide +kernel
  have hcable : ({ id := "bc", typeId := "cable", source := "b", target := "c" } : Edge) ∈
      cabledRow.edges.values := by
    decide +kernel
  have hboth : cablingPreset.BothWays "cable" := ⟨_, rfl, by decide⟩
  obtain ⟨_, _, htold, hkept⟩ :=
    step_adjoins cablingPreset cabledRow (answer.1.map DerivedEdge.toEdge)
  have hall := htold.mpr (hkept hunmistaken)
  refine ⟨cabling_accepted, hvalid, answer, hanswer, by rw [hedges, ← hid]; rfl, hunmistaken,
    hknown _ (by simp), hknown _ (by simp), ?_, ?_⟩
  · refine (hall "c" (hknown _ (by simp)) cableOut "b").mpr ?_
    exact ⟨_, List.mem_append_left _ hcable, .inl ⟨by decide, rfl, .inr ⟨hboth, rfl, rfl⟩⟩⟩
  · refine (hall "a" (hknown _ (by simp)) _ "c").mpr ?_
    refine ⟨e.toEdge, ?_, .inl ⟨by decide, htype, .inl ⟨hsource, htarget⟩⟩⟩
    exact List.mem_append_right _ (List.mem_map_of_mem (hedges ▸ List.mem_singleton_self e))

/-- The key of the way back along the cable is the id of the other edge, which takes its place. -/
theorem step_loses_cable :
    Audit.validate cabling = .ok (.ok cablingPreset) ∧
      (cabledHub "x~reverse").Valid cablingPreset ∧
      (∃ answer, pass cablingPreset (cabledHub "x~reverse") [] = .ok answer ∧ answer.1 = []) ∧
      (ofDocument cablingPreset (cabledHub "x~reverse") []).nodes.has "a" = true ∧
      ¬ ("b" ∈ (ofDocument cablingPreset (cabledHub "x~reverse") []).step cableOut "a" ↔
        Adjoins cablingPreset ((cabledHub "x~reverse").edges.values ++ []) cableOut "a" "b") := by
  have hcomputed : (pass cablingPreset (cabledHub "x~reverse") []).toOption.map (·.1) = some [] := by
    decide +kernel
  obtain ⟨answer, hsome, hnone⟩ := Option.map_eq_some_iff.mp hcomputed
  have hlost : "b" ∉ (ofDocument cablingPreset (cabledHub "x~reverse") []).step cableOut "a" := by
    decide +kernel
  have hedge : ({ id := "x", typeId := "cable", source := "b", target := "a" } : Edge) ∈
      (cabledHub "x~reverse").edges.values ++ [] := by
    decide +kernel
  have hboth : cablingPreset.BothWays "cable" := ⟨_, rfl, by decide⟩
  refine ⟨cabling_accepted, cabled_valid _, ⟨answer, eq_ok_of_toOption hsome, hnone⟩,
    by decide +kernel, fun h => hlost (h.mpr ⟨_, hedge, .inl ⟨by decide, rfl, .inr ?_⟩⟩)⟩
  exact ⟨hboth, rfl, rfl⟩

end Inference

end GraphWorkbench
