import GraphWorkbench.Proofs.Inference.Completeness
import GraphWorkbench.Proofs.Inference.Likeness
/-!
The ways that edges open in a graph. A way takes the place of another one of the same ends and key,
and keys are made up from the ids of edges; so a graph has the ways of all its edges only where no
two of them go by one key. This holds where ids are plain: nodes have no hyphens in theirs, and
authored edges none that could have been made up.
-/
namespace GraphWorkbench

open Outcome

/-- Ids that cannot be mistaken for others that are made up from them. -/
structure Document.PlainIds (d : Document) : Prop where
  nodes : ∀ key ∈ d.nodes.keys, '-' ∉ key.toList
  edges : ∀ key ∈ d.edges.keys, ¬ "inferred--".toList <+: key.toList
  ways : ∀ key ∈ d.edges.keys, ¬ "~reverse".toList <:+ key.toList

theorem Document.Conforms.get?_edge {p : Preset} {d : Document} (h : d.Conforms p) {e : Edge}
    (he : e ∈ d.edges.values) : d.edges.get? e.id = some e := by
  obtain ⟨key, hentry⟩ := Table.mem_values.mp he
  have hkey : e.id = key := h.edgeKeys _ hentry
  rw [hkey]
  exact Table.get?_of_mem hentry

/-- Edges of a relationship can be followed both ways. -/
def Preset.BothWays (p : Preset) (typeId : String) : Prop :=
  ∃ r, p.ruling? typeId = some r ∧ r.directionality ≠ .directed

namespace GraphView

variable {p : Preset} {d : Document} {v : GraphView} {e f : Edge} {l : Link}
  {links given : List Link} {edges derived : List Edge}

/-- The way from the source of an edge to its target. -/
def forth (e : Edge) : Link := ⟨e.source, e.target, e.id, e.typeId⟩

/-- The way back. -/
def back (e : Edge) : Link := ⟨e.target, e.source, s!"{e.id}~reverse", e.typeId⟩

/-- The ways that an edge opens. -/
def ways (p : Preset) (e : Edge) : List Link :=
  forth e :: match p.ruling? e.typeId with
    | some r => if r.directionality == .directed then [] else [back e]
    | none => []

theorem mem_ways : l ∈ ways p e ↔ l = forth e ∨ (p.BothWays e.typeId ∧ l = back e) := by
  unfold ways Preset.BothWays
  rw [List.mem_cons]
  cases p.ruling? e.typeId with
  | none => simp
  | some r => by_cases hdirected : r.directionality = .directed <;> simp [hdirected]

section Building

theorem links_addLink : (v.addLink l).links = putLink l v.links := by
  have hmention : ∀ (w : GraphView) name, (w.mention name).links = w.links := by
    intro w name
    unfold mention
    split <;> rfl
  change putLink l ((v.mention l.source).mention l.target).links = putLink l v.links
  rw [hmention, hmention]

theorem links_addEdge :
    (v.addEdge p e).links = (ways p e).foldl (fun links l => putLink l links) v.links := by
  unfold addEdge ways
  cases p.ruling? e.typeId with
  | none => exact links_addLink
  | some r =>
    dsimp only
    split
    · exact links_addLink
    · rw [links_addLink, links_addLink]
      rfl

theorem links_foldl_addEdge : (edges.foldl (addEdge p) v).links =
    (edges.flatMap (ways p)).foldl (fun links l => putLink l links) v.links := by
  induction edges generalizing v with
  | nil => rfl
  | cons e rest ih =>
    rw [List.foldl_cons, ih, links_addEdge, List.flatMap_cons, List.foldl_append]

/-- No two ways of the same ends and key are different. -/
def Clear (links : List Link) : Prop :=
  ∀ a ∈ links, ∀ b ∈ links, Link.sameWay a b = true → a = b

theorem mem_putLink_iff (clear : ∀ a ∈ links, Link.sameWay a l = true → a = l) {a : Link} :
    a ∈ putLink l links ↔ a = l ∨ a ∈ links := by
  refine ⟨mem_putLink, fun h => ?_⟩
  induction links with
  | nil => exact List.mem_singleton.mpr (h.resolve_right List.not_mem_nil)
  | cons b rest ih =>
    obtain ⟨hb, hrest⟩ := List.forall_mem_cons.mp clear
    rw [putLink]
    split
    next hsame =>
      -- the old link is the new one
      rw [hb hsame, List.mem_cons] at h
      exact List.mem_cons.mpr (or_self_left.mp h)
    next =>
      rw [List.mem_cons] at h ⊢
      obtain rfl | rfl | hmem := h
      · exact .inr (ih hrest (.inl rfl))
      · exact .inl rfl
      · exact .inr (ih hrest (.inr hmem))

theorem mem_foldl_putLink (clear : Clear (links ++ given)) :
    l ∈ given.foldl (fun links l => putLink l links) links ↔ l ∈ links ∨ l ∈ given := by
  induction given generalizing links with
  | nil => simp
  | cons a rest ih =>
    have hmem : ∀ b, b ∈ putLink a links ↔ b = a ∨ b ∈ links := by
      intro b
      apply mem_putLink_iff
      intro c hc
      exact clear c (List.mem_append_left _ hc) a (by simp)
    have hclear : Clear (putLink a links ++ rest) := by
      have hall : ∀ b ∈ putLink a links ++ rest, b ∈ links ++ a :: rest := by
        intro b hb
        rw [List.mem_append, hmem] at hb
        grind
      exact fun b hb c hc => clear b (hall b hb) c (hall c hc)
    rw [List.foldl_cons, ih hclear, hmem, List.mem_cons]
    grind

end Building

/-- No edge goes by the id of another one, or by the key of the way back along another one between
the same nodes. -/
structure Unmistaken (edges : List Edge) : Prop where
  ids : ∀ e ∈ edges, ∀ f ∈ edges, e.id = f.id → e = f
  keys : ∀ e ∈ edges, ∀ f ∈ edges, e.id = f.id ++ "~reverse" →
    ¬ (e.source = f.target ∧ e.target = f.source)

theorem Unmistaken.clear (h : Unmistaken edges) : Clear (edges.flatMap (ways p)) := by
  have hcross : ∀ e ∈ edges, ∀ f ∈ edges,
      ¬ (e.source = f.target ∧ e.target = f.source ∧ e.id = s!"{f.id}~reverse") :=
    fun e he f hf ⟨hsource, htarget, hid⟩ => h.keys e he f hf hid ⟨hsource, htarget⟩
  intro a ha b hb hsame
  obtain ⟨e, he, ha⟩ := List.mem_flatMap.mp ha
  obtain ⟨f, hf, hb⟩ := List.mem_flatMap.mp hb
  simp only [Link.sameWay, Bool.and_eq_true, beq_iff_eq, and_assoc] at hsame
  obtain ⟨hsource, htarget, hkey⟩ := hsame
  rw [mem_ways] at ha hb
  obtain rfl | ⟨_, rfl⟩ := ha <;> obtain rfl | ⟨_, rfl⟩ := hb
  · have hid : e.id = f.id := hkey
    rw [h.ids e he f hf hid]
  · exact absurd ⟨hsource, htarget, hkey⟩ (hcross e he f hf)
  · exact absurd ⟨hsource.symm, htarget.symm, hkey.symm⟩ (hcross f hf e he)
  · have hid : e.id = f.id := (String.append_left_inj "~reverse").mp hkey
    rw [h.ids e he f hf hid]

/-- An edge of a type opens a way from one node to another. -/
def Opens (p : Preset) (typeId source target : String) (e : Edge) : Prop :=
  e.typeId = typeId ∧ ((e.source = source ∧ e.target = target) ∨
    (p.BothWays typeId ∧ e.source = target ∧ e.target = source))

/-- Where no edge is mistaken for another one, the links of a graph are the ways of all edges. -/
theorem linked_ofDocument (h : Unmistaken (d.edges.values ++ derived))
    {typeId source target : String} : (ofDocument p d derived).Linked typeId source target ↔
      ∃ e ∈ d.edges.values ++ derived, Opens p typeId source target e := by
  have hlinks : ∀ l, l ∈ (ofDocument p d derived).links ↔
      ∃ e ∈ d.edges.values ++ derived, l ∈ ways p e := by
    intro l
    unfold ofDocument
    rw [links_foldl_addEdge, mem_foldl_putLink h.clear, List.mem_flatMap]
    simp
  unfold Linked Opens
  simp only [hlinks, mem_ways]
  constructor
  · rintro ⟨l, ⟨e, he, rfl | ⟨hboth, rfl⟩⟩, rfl, rfl, rfl⟩
    · exact ⟨e, he, rfl, .inl ⟨rfl, rfl⟩⟩
    · exact ⟨e, he, rfl, .inr ⟨hboth, rfl, rfl⟩⟩
  · rintro ⟨e, he, rfl, ⟨rfl, rfl⟩ | ⟨hboth, rfl, rfl⟩⟩
    · exact ⟨forth e, ⟨e, he, .inl rfl⟩, rfl, rfl, rfl⟩
    · exact ⟨back e, ⟨e, he, .inr ⟨hboth, rfl⟩⟩, rfl, rfl, rfl⟩

end GraphView

section Ids

/-- What a text starts with, that lacks the sign after a part of it, the part starts with. -/
theorem prefix_of_prefix_append_cons {α : Type} {x : α} {xs ys zs : List α} (hx : x ∉ xs)
    (h : xs <+: ys ++ x :: zs) : xs <+: ys := by
  obtain ⟨rest, hrest⟩ := h
  rcases List.append_eq_append_iff.mp hrest with ⟨as, rfl, _⟩ | ⟨as, rfl, has⟩
  · exact List.prefix_append xs as
  · cases as with
    | nil => simp
    | cons a rest =>
      obtain ⟨rfl, _⟩ := List.cons.inj has
      exact absurd (List.mem_append_right _ List.mem_cons_self) hx

theorem Mapping.edge_id_starts (m : Mapping) (relationship source target : String) :
    "inferred--".toList <+: (m.edge relationship source target).id.toList := by
  rw [toList_edge_id]
  simp only [List.append_assoc]
  exact List.prefix_append _ _

theorem Mapping.edge_id_reverse (m : Mapping) (relationship source target : String) :
    (m.edge relationship source target).id ++ "~reverse" =
      (m.edge relationship source (target ++ "~reverse")).id := by
  apply String.toList_inj.mp
  rw [String.toList_append, toList_edge_id, toList_edge_id, String.toList_append]
  simp only [List.append_assoc, List.cons_append]

end Ids

namespace Inference

variable {p : Preset} {d : Document} {edges before : List DerivedEdge}

/-- Good edges that go by ids made up of a mapping and their ends. -/
structure Built (p : Preset) (d : Document) (edges : List DerivedEdge) : Prop
    extends Good p d edges where
  shaped : ∀ e ∈ edges, ∃ m : Mapping, e = m.edge e.relationship e.source e.target

theorem Built.nil : Built p d [] := ⟨Good.nil, by simp⟩

theorem Built.pass (hp : p.WellFormed) (hd : d.Valid p) (built : Built p d before)
    {answer : List DerivedEdge × Attributes} (run : pass p d before = .ok answer) :
    Built p d answer.1 := by
  obtain ⟨_, hanswer, hgood⟩ := pass_gives hp hd built.toGood
  obtain rfl := Except.ok.inj (run.symm.trans hanswer)
  refine ⟨hgood, fun e he => ?_⟩
  obtain ⟨m, hm⟩ := derives_of_mem_pass hp hd built.toGood run he
  exact ⟨m, hm.shape⟩

theorem Good.eq_of_ends (good : Good p d edges) {e f : DerivedEdge} (he : e ∈ edges)
    (hf : f ∈ edges) (source : e.source = f.source) (target : e.target = f.target) : e = f := by
  have hbetween := between_eq_singleton good.distinct he
  rw [source, target, between_eq_singleton good.distinct hf] at hbetween
  exact (List.singleton_inj.mp hbetween).symm

section Plain

variable {e f : DerivedEdge}

theorem Built.plain_ends (built : Built p d edges) (plain : d.PlainIds) (he : e ∈ edges) :
    '-' ∉ e.source.toList ∧ '-' ∉ e.target.toList := by
  obtain ⟨hsource, htarget⟩ := built.connects e.toEdge (List.mem_map_of_mem he)
  exact ⟨plain.nodes _ ((Table.has_iff_mem_keys _ _).mp hsource),
    plain.nodes _ ((Table.has_iff_mem_keys _ _).mp htarget)⟩

theorem Built.starts (built : Built p d edges) (he : e ∈ edges) :
    "inferred--".toList <+: e.id.toList := by
  obtain ⟨m, hm⟩ := built.shaped e he
  rw [hm]
  exact m.edge_id_starts _ _ _

theorem Built.eq_of_id (built : Built p d edges) (plain : d.PlainIds) (he : e ∈ edges)
    (hf : f ∈ edges) (same : e.id = f.id) : e = f := by
  obtain ⟨m, hm⟩ := built.shaped e he
  obtain ⟨m', hm'⟩ := built.shaped f hf
  obtain ⟨hsource, htarget⟩ := built.plain_ends plain he
  obtain ⟨hsource', htarget'⟩ := built.plain_ends plain hf
  rw [hm, hm'] at same
  obtain ⟨_, hsources, htargets⟩ := Mapping.edge_id_inj hsource hsource' htarget htarget' same
  exact built.eq_of_ends he hf hsources htargets

/-- The key of the way back along a derived edge is an id for no edge from its target, since that is
another node than its source. -/
theorem Built.ne_reverse (built : Built p d edges) (plain : d.PlainIds) (he : e ∈ edges)
    (hf : f ∈ edges) (turned : e.source = f.target) : e.id ≠ f.id ++ "~reverse" := by
  intro same
  obtain ⟨m, hm⟩ := built.shaped e he
  obtain ⟨m', hm'⟩ := built.shaped f hf
  obtain ⟨hsource, htarget⟩ := built.plain_ends plain he
  obtain ⟨hsource', htarget'⟩ := built.plain_ends plain hf
  have hback : '-' ∉ (f.target ++ "~reverse").toList := by
    rw [String.toList_append, List.mem_append, not_or]
    exact ⟨htarget', by decide⟩
  rw [hm, hm', Mapping.edge_id_reverse] at same
  obtain ⟨_, hsources, _⟩ := Mapping.edge_id_inj hsource hsource' htarget hback same
  exact (built.admissible f hf).apart (hsources.symm.trans turned)

end Plain

/-- Where ids are plain, none of the authored edges and the derived ones is mistaken for another. -/
theorem Built.unmistaken (hd : d.Valid p) (plain : d.PlainIds) (built : Built p d edges) :
    GraphView.Unmistaken (d.edges.values ++ edges.map DerivedEdge.toEdge) := by
  have hkey : ∀ e ∈ d.edges.values, e.id ∈ d.edges.keys := fun e he =>
    (Table.has_iff_mem_keys _ _).mp (Table.has_iff_exists.mpr ⟨e, hd.get?_edge he⟩)
  constructor
  · intro e he f hf hid
    obtain he | he := List.mem_append.mp he <;> obtain hf | hf := List.mem_append.mp hf
    · exact Option.some.inj ((hd.get?_edge he).symm.trans (hid ▸ hd.get?_edge hf))
    -- no authored edge goes by an id that starts as those of derived edges do
    · obtain ⟨g, hg, rfl⟩ := List.mem_map.mp hf
      exact absurd (hid ▸ built.starts hg) (plain.edges _ (hkey e he))
    · obtain ⟨g, hg, rfl⟩ := List.mem_map.mp he
      exact absurd (hid ▸ built.starts hg) (plain.edges _ (hkey f hf))
    · obtain ⟨g, hg, rfl⟩ := List.mem_map.mp he
      obtain ⟨o, ho, rfl⟩ := List.mem_map.mp hf
      rw [built.eq_of_id plain hg ho hid]
  · rintro e he f hf hid ⟨hsource, _⟩
    have hchars : e.id.toList = f.id.toList ++ "~reverse".toList := by
      rw [hid, String.toList_append]
    obtain he | he := List.mem_append.mp he
    · exact plain.ways _ (hkey e he) (hchars ▸ List.suffix_append _ _)
    -- the key of the way back along an authored edge would start as the id of a derived edge does
    obtain ⟨g, hg, rfl⟩ := List.mem_map.mp he
    obtain hf | hf := List.mem_append.mp hf
    · have hstart : "inferred--".toList <+: f.id.toList ++ "~reverse".toList :=
        hchars ▸ built.starts hg
      exact plain.edges _ (hkey f hf) (prefix_of_prefix_append_cons (by decide) hstart)
    · obtain ⟨o, ho, rfl⟩ := List.mem_map.mp hf
      exact built.ne_reverse plain hg ho hsource hid

end Inference

end GraphWorkbench
