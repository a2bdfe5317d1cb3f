import GraphWorkbench.Proofs.Inference.Completeness
import Mathlib.Data.List.Induction
/-!
What a pass gathers, told apart by nodes. Of the edges offered from one node to another the last one
is gathered, and only mappings for the first node offer them; the attributes of a node are what the
mappings that find something for it tell, in turn. So the order of nodes does not count.
-/
namespace GraphWorkbench

open Outcome

universe u

section Lists

variable {α : Type u} {a : α} {xs : List α}

/-- Of items that are all the same, any one is the last. -/
theorem getLast?_eq_some_iff_mem (same : ∀ x ∈ xs, ∀ y ∈ xs, x = y) :
    xs.getLast? = some a ↔ a ∈ xs := by
  refine ⟨List.mem_of_getLast?, fun h => ?_⟩
  have hne : xs ≠ [] := List.ne_nil_of_mem h
  rw [List.getLast?_eq_some_getLast hne]
  exact congrArg some (same _ (List.getLast_mem hne) a h)

/-- The last item of lists one after another depends on the last item of each. -/
theorem getLast?_flatMap_congr {β : Type u} {f g : α → List β}
    (same : ∀ x ∈ xs, (f x).getLast? = (g x).getLast?) :
    (xs.flatMap f).getLast? = (xs.flatMap g).getLast? := by
  induction xs with
  | nil => rfl
  | cons x rest ih =>
    obtain ⟨hx, hrest⟩ := List.forall_mem_cons.mp same
    rw [List.flatMap_cons, List.flatMap_cons, List.getLast?_append, List.getLast?_append, ih hrest,
      hx]

end Lists

/-- A node of a valid document stands among others of other ids. -/
theorem Document.Conforms.values_at {p : Preset} {d : Document} (h : d.Conforms p) {n : Node}
    (hn : n ∈ d.nodes.values) : ∃ before after, d.nodes.values = before ++ n :: after ∧
      (∀ o ∈ before, o.id ≠ n.id) ∧ ∀ o ∈ after, o.id ≠ n.id := by
  obtain ⟨before, after, hentries⟩ := Table.exists_at (h.get?_node hn)
  have hothers : ∀ part : List (String × Node), part ⊆ d.nodes.entries →
      n.id ∉ Entries.keys part → ∀ o ∈ part.map Prod.snd, o.id ≠ n.id := by
    intro part hpart hkey o ho hid
    obtain ⟨entry, hentry, rfl⟩ := List.mem_map.mp ho
    have hsame : entry.2.id = entry.1 := h.nodeKeys _ (hpart hentry)
    exact hkey (hid ▸ hsame ▸ List.mem_map_of_mem hentry)
  obtain ⟨hbefore, hafter⟩ := Table.notMem_of_at hentries
  refine ⟨before.map Prod.snd, after.map Prod.snd, ?_, ?_, ?_⟩
  · rw [Table.values, hentries, List.map_append, List.map_cons]
  · exact hothers before (by simp [hentries]) hbefore
  · exact hothers after (by simp [hentries]) hafter

namespace Inference

variable {p : Preset} {d : Document} {v : GraphView} {n : Node} {m : Mapping} {e : DerivedEdge}
  {h h' : Harvest} {source target key : String}

section Edges

/-- Of the edges put last one after another, the last one between two nodes stays. -/
theorem mem_foldl_putLast {given : List DerivedEdge} :
    e ∈ given.foldl putLast [] ↔ (between given e.source e.target).getLast? = some e := by
  induction given using List.reverseRecOn with
  | nil => simp [between]
  | append_singleton rest a ih =>
    have hbetween : between (rest ++ [a]) e.source e.target =
        between rest e.source e.target ++ between [a] e.source e.target := List.filter_append ..
    have hput : e ∈ (rest ++ [a]).foldl putLast [] ↔
        (e ∈ rest.foldl putLast [] ∧ ¬ (e.source = a.source ∧ e.target = a.target)) ∨ e = a := by
      rw [List.foldl_append]
      simp [putLast, imp_iff_not_or]
    rw [hput, hbetween, List.getLast?_append, ih]
    by_cases hends : a.source = e.source ∧ a.target = e.target
    · -- the new edge is the last one between its nodes
      have hlast : between [a] e.source e.target = [a] := by simp [between, hends]
      rw [hlast]
      simp [hends, eq_comm]
    · have hnone : between [a] e.source e.target = [] := by simpa [between] using hends
      have hother : e ≠ a := fun same => hends ⟨same ▸ rfl, same ▸ rfl⟩
      rw [hnone]
      simp [hother]
      grind

theorem source_of_mem_offers (he : e ∈ offers p d v n m) : e.source = n.id := by
  obtain ⟨_, _, _, _, _, _, _, _, _, rfl⟩ := mem_offers.mp he
  rfl

theorem between_flatMap {α : Type u} {xs : List α} {f : α → List DerivedEdge} :
    between (xs.flatMap f) source target = xs.flatMap fun x => between (f x) source target :=
  List.filter_flatMap

/-- Only what mappings offer for a node leads from it. -/
theorem between_candidates (hd : d.Valid p) (hn : n ∈ d.nodes.values) :
    between (candidates p d v) n.id target =
      (mappingsFor p n.typeId).flatMap fun m => between (offers p d v n m) n.id target := by
  have hnone : ∀ others : List Node, (∀ o ∈ others, o.id ≠ n.id) → (others.flatMap fun o =>
      (mappingsFor p o.typeId).flatMap fun m => between (offers p d v o m) n.id target) = [] := by
    intro others hothers
    refine List.flatMap_eq_nil_iff.mpr fun o ho => List.flatMap_eq_nil_iff.mpr fun m _ => ?_
    refine List.filter_eq_nil_iff.mpr fun e he hends => hothers o ho ?_
    simp only [Bool.and_eq_true, beq_iff_eq] at hends
    exact (source_of_mem_offers he).symm.trans hends.1
  obtain ⟨before, after, hvalues, hbefore, hafter⟩ := hd.values_at hn
  unfold candidates
  simp only [between_flatMap]
  rw [hvalues, List.flatMap_append, List.flatMap_cons, hnone before hbefore, hnone after hafter,
    List.nil_append, List.append_nil]

/-- A mapping offers the same edge every time when it offers one between two nodes. -/
theorem getLast?_between_offers : (between (offers p d v n m) source target).getLast? = some e ↔
    e ∈ offers p d v n m ∧ e.source = source ∧ e.target = target := by
  have hsame : ∀ a ∈ between (offers p d v n m) source target,
      ∀ b ∈ between (offers p d v n m) source target, a = b := by
    intro a ha b hb
    simp only [between, List.mem_filter, Bool.and_eq_true, beq_iff_eq] at ha hb
    obtain ⟨_, r, _, _, _, hr, _, _, _, rfl⟩ := mem_offers.mp ha.1
    obtain ⟨_, r', _, _, _, hr', _, _, _, rfl⟩ := mem_offers.mp hb.1
    obtain rfl : r = r' := Option.some.inj (hr.symm.trans hr')
    have htargets := ha.2.2.trans hb.2.2.symm
    exact congrArg (m.edge r.id n.id) htargets
  rw [getLast?_eq_some_iff_mem hsame]
  simp [between]

/-- An edge is gathered when it is the last one that mappings offer between its nodes. -/
theorem mem_harvest_iff (hd : d.Valid p) (hn : n ∈ d.nodes.values) (run : harvest p d v = .ok h)
    (leads : e.source = n.id) : e ∈ h.edges ↔
      ((mappingsFor p n.typeId).flatMap fun m =>
        between (offers p d v n m) n.id e.target).getLast? = some e := by
  rw [edges_of_harvest run, mem_foldl_putLast, leads, between_candidates hd hn]

end Edges

section Attributes

/-- Whether a mapping finds a target for a node. -/
def finds (d : Document) (v : GraphView) (n : Node) (m : Mapping) : Bool :=
  match targetsOf d v n m with
  | .ok targets => !targets.isEmpty
  | .error _ => false

/-- The attributes of a node after a mapping has told its own. -/
def tell (d : Document) (v : GraphView) (n : Node) (known : Option (Table Json)) (m : Mapping) :
    Option (Table Json) :=
  if finds d v n m && !m.rule.attributes.isEmpty then
    some ((known.getD .empty).merge m.rule.attributes)
  else known

/-- The attributes of a node after all mappings for it. -/
def told (p : Preset) (d : Document) (v : GraphView) (n : Node) (known : Option (Table Json)) :
    Option (Table Json) :=
  (mappingsFor p n.typeId).foldl (tell d v n) known

theorem attributes_of_deriveEdge {r : Relationship} {t : NodeType}
    (run : deriveEdge p d n m r t h target = .ok h') : h'.attributes = h.attributes := by
  obtain ⟨_, _, hgoverned⟩ := bind_eq_ok.mp run
  obtain ⟨_, _, hput⟩ := bind_eq_ok.mp hgoverned
  split at hput
  · rw [← Except.ok.inj hput]
  · rw [← Except.ok.inj hput]
    rfl

theorem get?_describe {node : String} {attributes : Table Json} :
    (h.describe node attributes).attributes.get? key =
      if key = node ∧ attributes.isEmpty = false then
        some (((h.attributes.get? key).getD .empty).merge attributes)
      else h.attributes.get? key := by
  unfold Harvest.describe
  cases attributes.isEmpty <;> by_cases hkey : key = node <;> simp [hkey]

theorem attributes_of_applyMapping (run : applyMapping p d v n h m = .ok h') :
    h'.attributes.get? key =
      if key = n.id then tell d v n (h.attributes.get? key) m else h.attributes.get? key := by
  obtain ⟨targets, htargets, hrest⟩ := bind_eq_ok.mp run
  unfold tell finds
  rw [htargets]
  by_cases hempty : targets.isEmpty = true
  · rw [if_pos hempty] at hrest
    rw [← Except.ok.inj hrest]
    simp [hempty]
  · rw [if_neg hempty] at hrest
    have hdescribed : h'.attributes = (h.describe n.id m.rule.attributes).attributes := by
      cases hderived : m.rule.derived with
      | none =>
        simp only [hderived] at hrest
        rw [← Except.ok.inj hrest]
      | some name =>
        simp only [hderived] at hrest
        obtain ⟨r, _, hgoverned⟩ := bind_eq_ok.mp hrest
        obtain ⟨t, _, hfold⟩ := bind_eq_ok.mp hgoverned
        exact foldlM_induct
          (P := fun h' => h'.attributes = (h.describe n.id m.rule.attributes).attributes)
          (fun hstep hold => (attributes_of_deriveEdge hstep).trans hold) hfold rfl
    rw [hdescribed, get?_describe]
    by_cases hkey : key = n.id <;> simp [hkey, hempty]

theorem attributes_of_mappings {ms : List Mapping}
    (run : ms.foldlM (applyMapping p d v n) h = .ok h') :
    h'.attributes.get? key =
      if key = n.id then ms.foldl (tell d v n) (h.attributes.get? key)
      else h.attributes.get? key := by
  induction ms generalizing h with
  | nil =>
    rw [← Except.ok.inj run]
    simp
  | cons m rest ih =>
    rw [List.foldlM_cons] at run
    obtain ⟨mid, hm, hrest⟩ := bind_eq_ok.mp run
    rw [ih hrest, attributes_of_applyMapping hm]
    split <;> rfl

theorem attributes_of_nodes {ns : List Node} (run : ns.foldlM
      (fun h n => (mappingsFor p n.typeId).foldlM (applyMapping p d v n) h) h = .ok h') :
    h'.attributes.get? key = ns.foldl
      (fun known n => if key = n.id then told p d v n known else known) (h.attributes.get? key) := by
  induction ns generalizing h with
  | nil => rw [← Except.ok.inj run, List.foldl_nil]
  | cons n rest ih =>
    rw [List.foldlM_cons] at run
    obtain ⟨mid, hn, hrest⟩ := bind_eq_ok.mp run
    rw [ih hrest, attributes_of_mappings hn, List.foldl_cons, told]

/-- The attributes of a node are what mappings for it tell. -/
theorem attributes_of_harvest (hd : d.Valid p) (run : harvest p d v = .ok h) :
    h.attributes.get? key = (d.nodes.get? key).bind fun n => told p d v n none := by
  have hstart : ({} : Harvest).attributes.get? key = none := rfl
  have hnone : ∀ (others : List Node) known, (∀ o ∈ others, o.id ≠ key) → others.foldl
      (fun known n => if key = n.id then told p d v n known else known) known = known := by
    intro others known hothers
    induction others with
    | nil => rfl
    | cons o rest ih =>
      obtain ⟨ho, hrest⟩ := List.forall_mem_cons.mp hothers
      rw [List.foldl_cons, if_neg ho.symm, ih hrest]
  -- of all nodes only the one of that id has a part in its attributes
  rw [attributes_of_nodes run, hstart]
  cases hfound : d.nodes.get? key with
  | none =>
    rw [hnone, Option.bind_none]
    intro o ho hid
    have hget := hd.get?_node ho
    rw [hid, hfound] at hget
    exact nomatch hget
  | some n =>
    have hn := Table.mem_values_of_get? hfound
    obtain rfl : n.id = key := hd.nodeKeys _ (Entries.mem_of_get? hfound)
    obtain ⟨before, after, hvalues, hbefore, hafter⟩ := hd.values_at hn
    rw [hvalues, List.foldl_append, List.foldl_cons, hnone before none hbefore,
      hnone after _ hafter, if_pos rfl, Option.bind_some]

end Attributes

end Inference

end GraphWorkbench
