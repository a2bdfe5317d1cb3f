import GraphWorkbench.Proofs.Inference.View
/-!
Graphs that differ in order only. What a derivation finds on a graph is a list whose order may follow
that of nodes and links, but the nodes in it depend on which nodes there are and which links lead
from one to another. Each kind of walk keeps this, step by step.
-/
namespace GraphWorkbench

open Outcome

namespace GraphView

variable {v v' : GraphView} {s : PathStep} {name node source target typeId : String}
  {names names' : List String}

/-- A link of a type leads from one node to another. -/
def Linked (v : GraphView) (typeId source target : String) : Prop :=
  ∃ l ∈ v.links, l.typeId = typeId ∧ l.source = source ∧ l.target = target

/-- What a graph tells of a node: whether it is there, and if so what it has under each property, as
far as that is known. -/
def lookup (v : GraphView) (node : String) : Option (Option (String → Option Json)) :=
  (v.nodes.get? node).map (Option.map Table.get?)

/-- Two graphs have the same nodes and the same links between them, in whatever order. -/
structure Alike (v v' : GraphView) : Prop where
  nodes : ∀ node, v'.lookup node = v.lookup node
  links : ∀ typeId source target, v'.Linked typeId source target ↔ v.Linked typeId source target

/-- Two lists have the same members. -/
def Agree (names names' : List String) : Prop := ∀ name, name ∈ names' ↔ name ∈ names

theorem Agree.isEmpty_eq (h : Agree names names') : names'.isEmpty = names.isEmpty := by
  rw [Bool.eq_iff_iff, List.isEmpty_iff, List.isEmpty_iff, List.eq_nil_iff_forall_not_mem,
    List.eq_nil_iff_forall_not_mem]
  exact forall_congr' fun name => not_congr (h name)

theorem Agree.filter (h : Agree names names') (wanted : String → Bool) :
    Agree (names.filter wanted) (names'.filter wanted) := by
  intro name
  rw [List.mem_filter, List.mem_filter, h name]

section Members

theorem mem_after : target ∈ v.after typeId node ↔ v.Linked typeId node target := by
  unfold after Linked
  simp only [List.mem_filter, List.mem_eraseDups, List.mem_map, List.any_eq_true, Bool.and_eq_true,
    beq_iff_eq]
  grind

theorem mem_before : source ∈ v.before typeId node ↔ v.Linked typeId source node := by
  unfold before Linked
  simp only [List.mem_filter, List.mem_eraseDups, List.mem_map, List.any_eq_true, Bool.and_eq_true,
    beq_iff_eq]
  grind

theorem mem_step : target ∈ v.step s name ↔ ∃ start ∈ v.startsOf name,
    (s.direction ≠ .inward ∧ v.Linked s.relationship start target) ∨
      (s.direction ≠ .outward ∧ v.Linked s.relationship target start) := by
  unfold step
  rw [List.mem_eraseDups]
  cases s.direction <;> simp [List.mem_flatMap, mem_after, mem_before, exists_or, and_or_left]

end Members

namespace Alike

theorem symm (h : v.Alike v') : v'.Alike v :=
  ⟨fun node => (h.nodes node).symm, fun typeId source target => (h.links typeId source target).symm⟩

theorem has_eq (h : v.Alike v') : v'.nodes.has name = v.nodes.has name := by
  have hthere : ∀ w : GraphView, (w.lookup name).isSome = w.nodes.has name :=
    fun _ => Option.isSome_map
  rw [← hthere, ← hthere, h.nodes]

theorem mem_keys (h : v.Alike v') : name ∈ v'.nodes.keys ↔ name ∈ v.nodes.keys := by
  rw [← Table.has_iff_mem_keys, ← Table.has_iff_mem_keys, h.has_eq]

theorem size_eq (h : v.Alike v') : v'.nodes.size = v.nodes.size := by
  have hkeys : v'.nodes.keys.Perm v.nodes.keys :=
    (List.perm_ext_iff_of_nodup v'.nodes.nodup v.nodes.nodup).mpr fun _ => h.mem_keys
  have hlength := hkeys.length_eq
  simpa [Table.size, Table.keys, Entries.keys] using hlength

theorem startsOf_eq (h : v.Alike v') : v'.startsOf name = v.startsOf name := by
  have hhas : v'.nodes.has = v.nodes.has := funext fun _ => h.has_eq
  unfold startsOf
  rw [hhas]

theorem step (h : v.Alike v') (s : PathStep) (name : String) :
    Agree (v.step s name) (v'.step s name) := by
  intro target
  simp only [mem_step, h.startsOf_eq, h.links]

/-- From nodes that agree, steps lead to nodes that agree. -/
theorem flatMap_step (h : v.Alike v') (s : PathStep) (same : Agree names names') :
    Agree (names.flatMap (v.step s)) (names'.flatMap (v'.step s)) := by
  intro target
  simp only [List.mem_flatMap, same _, h.step s _ target]

theorem pathEnds (h : v.Alike v') (steps : List PathStep) (node : String) :
    Agree (v.pathEnds steps node) (v'.pathEnds steps node) := by
  -- the fronts agree at the start, and each step leads from fronts that agree to others
  have hfronts : ∀ front front', Agree front front' →
      Agree (steps.foldl (fun front s => (front.flatMap (v.step s)).eraseDups) front)
        (steps.foldl (fun front s => (front.flatMap (v'.step s)).eraseDups) front') := by
    induction steps with
    | nil => exact fun _ _ same => same
    | cons s rest ih =>
      intro front front' same
      apply ih
      intro target
      rw [List.mem_eraseDups, List.mem_eraseDups]
      exact h.flatMap_step s same target
  exact (hfronts [node] [node] fun _ => Iff.rfl).filter _

/-- Spreading by steps that agree, from nodes that agree, reaches nodes that agree. -/
theorem spread {next next' : String → List String} (steps : ∀ n, Agree (next n) (next' n))
    {rounds : Nat} {latest latest' seen seen' : List String} (fronts : Agree latest latest')
    (reached : Agree seen seen') :
    Agree (Chain.spread next rounds latest seen) (Chain.spread next' rounds latest' seen') := by
  induction rounds generalizing latest latest' seen seen' with
  | zero => exact reached
  | succ rounds ih =>
    have hfresh : Agree (Chain.fresh next latest seen) (Chain.fresh next' latest' seen') := by
      intro target
      simp only [Chain.mem_fresh, fronts _, steps _ target, reached target]
    rw [Chain.spread, Chain.spread, hfresh.isEmpty_eq]
    split
    · exact reached
    · apply ih hfresh
      intro target
      rw [List.mem_append, List.mem_append, reached, hfresh]

theorem reached {c c' : Chain} {next next' : String → List String}
    (size : c'.nodes.length = c.nodes.length) (steps : ∀ n, Agree (next n) (next' n))
    (node : String) : Agree (c.reached next node) (c'.reached next' node) := by
  unfold Chain.reached
  rw [size]
  exact spread steps (fun _ => Iff.rfl) fun _ => Iff.rfl

theorem reach (h : v.Alike v') (s : PathStep) (node : String) :
    Agree (v.reach s node) (v'.reach s node) := by
  let c := v.chain s.relationship
  let c' := v'.chain s.relationship
  have hsize : c'.nodes.length = c.nodes.length := by
    simpa [c, c', chain, Table.size, Table.keys, Entries.keys] using h.size_eq
  have harc : ∀ a b, c'.Arc a b ↔ c.Arc a b := by
    intro a b
    rw [arc_chain, arc_chain]
    exact h.links s.relationship a b
  have hdescendants : Agree (c.descendants node) (c'.descendants node) := by
    refine (reached hsize (fun n name => ?_) node).filter _
    rw [Chain.mem_successors, Chain.mem_successors, harc]
  have hancestors : Agree (c.ancestors node) (c'.ancestors node) := by
    refine (reached hsize (fun n name => ?_) node).filter _
    rw [Chain.mem_predecessors, Chain.mem_predecessors, harc]
  have hcomponent : Agree (c.component node) (c'.component node) := by
    refine reached hsize (fun n name => ?_) node
    rw [Chain.mem_successors, Chain.mem_successors, Chain.arc_undirected, Chain.arc_undirected]
    exact or_congr (harc n name) (harc name n)
  intro target
  unfold GraphView.reach reachable
  rw [List.mem_mergeSort, List.mem_mergeSort]
  cases s.direction with
  | outward => exact hdescendants target
  | inward => exact hancestors target
  | either => exact hcomponent.filter _ target

end Alike

section Found

variable {rule : Derivation} {property : Option String} {ts ts' : List String}

theorem Alike.reachFirst (h : v.Alike v') {steps : List PathStep}
    (run : v.reachFirst steps node = .ok ts) (run' : v'.reachFirst steps node = .ok ts') :
    Agree ts ts' := by
  cases steps with
  | nil => exact nomatch run
  | cons s rest =>
    by_cases hhas : v.nodes.has node = true
    · rw [reachFirst_of_has hhas] at run
      rw [reachFirst_of_has (h.has_eq.trans hhas)] at run'
      rw [← Except.ok.inj run, ← Except.ok.inj run']
      exact h.reach s node
    · unfold GraphView.reachFirst at run
      simp only [hhas] at run
      cases hdirection : s.direction <;> simp [hdirection] at run

theorem propertiesOf_eq_ok {properties : Table Json} :
    v.propertiesOf node = .ok properties ↔ v.nodes.get? node = some (some properties) := by
  unfold propertiesOf
  split <;> simp_all

/-- The other nodes whose value under a property is equal to a given one. -/
def equals (v : GraphView) (property : Option String) (node : String) (value : Json) :
    Except Fault (List String) := do
  let others := v.nodes.entries.filter fun e => e.1 != node
  let hits ← others.filterM fun e => match e.2 with
    | none => throw .noMember
    | some properties => return match property.bind properties.get? with
      | some w => w.equal value
      | none => false
  return Entries.keys hits

theorem mem_equals {value : Json} (run : v.equals property node value = .ok ts) :
    target ∈ ts ↔ target ≠ node ∧ ∃ theirs w, v.lookup target = some (some theirs) ∧
      property.bind theirs = some w ∧ w.equal value = true := by
  obtain ⟨hits, hhits, hts⟩ := bind_eq_ok.mp run
  obtain rfl := Except.ok.inj hts
  have hentry : ∀ properties, (target, properties) ∈ v.nodes.entries ↔
      v.nodes.get? target = some properties :=
    fun properties => ⟨Table.get?_of_mem, Entries.mem_of_get?⟩
  unfold Entries.keys lookup
  simp only [List.mem_map, mem_filterM hhits, List.mem_filter]
  constructor
  · rintro ⟨⟨key, _ | properties⟩, ⟨⟨hmem, hother⟩, hhit⟩, rfl⟩
    · cases hhit
    · refine ⟨by simpa using hother, properties.get?, ?_⟩
      cases hvalue : property.bind properties.get? with
      | none => simp [hvalue, pure_eq_ok] at hhit
      | some w =>
        simp only [hvalue] at hhit
        exact ⟨w, by rw [(hentry _).mp hmem]; rfl, rfl, Except.ok.inj hhit⟩
  · rintro ⟨hother, theirs, w, hlookup, hvalue, hequal⟩
    obtain ⟨known, hknown, hproperties⟩ := Option.map_eq_some_iff.mp hlookup
    obtain ⟨properties, rfl, rfl⟩ := Option.map_eq_some_iff.mp hproperties
    refine ⟨(target, some properties), ⟨⟨(hentry _).mpr hknown, by simpa using hother⟩, ?_⟩, rfl⟩
    simp only [hvalue, hequal, pure_eq_ok]

/-- Nodes match another one under a property with a value when theirs is equal to it. -/
theorem mem_matching (run : v.matching property node = .ok ts) :
    target ∈ ts ↔ ∃ own value, v.lookup node = some (some own) ∧ property.bind own = some value ∧
      value ≠ .null ∧ value ≠ .str "" ∧ target ≠ node ∧ ∃ theirs w,
        v.lookup target = some (some theirs) ∧ property.bind theirs = some w ∧
        w.equal value = true := by
  obtain ⟨own, hown, hrest⟩ := bind_eq_ok.mp run
  have hlookup : v.lookup node = some (some own.get?) := by
    rw [lookup, propertiesOf_eq_ok.mp hown]
    rfl
  simp only [hlookup, Option.some.injEq, exists_and_left, exists_eq_left']
  -- a value that is not there, or is nothing, is matched by no node
  split at hrest
  next hnone => simp [← Except.ok.inj hrest, hnone]
  next hnull => simp [← Except.ok.inj hrest, hnull]
  next hempty => simp [← Except.ok.inj hrest, hempty]
  next value hnull hempty hvalue =>
    have hequals : v.equals property node value = .ok ts := hrest
    have hgiven : value ≠ .null ∧ value ≠ .str "" := ⟨hnull, hempty⟩
    rw [mem_equals hequals, hvalue]
    simp [hgiven]

theorem Alike.matching (h : v.Alike v') (run : v.matching property node = .ok ts)
    (run' : v'.matching property node = .ok ts') : Agree ts ts' := by
  intro target
  rw [mem_matching run, mem_matching run', h.nodes, h.nodes]

/-- On graphs that differ in order only, a derivation finds the same targets. -/
theorem Alike.targets (h : v.Alike v') (run : v.targets rule node = .ok ts)
    (run' : v'.targets rule node = .ok ts') : Agree ts ts' := by
  unfold GraphView.targets at run run'
  cases hkind : rule.kind with
  | neighbors =>
    rw [hkind] at run run'
    rw [← Except.ok.inj run, ← Except.ok.inj run']
    intro target
    simp only [List.mem_eraseDups, List.mem_flatMap, h.step _ _ target]
  | path =>
    rw [hkind] at run run'
    rw [← Except.ok.inj run, ← Except.ok.inj run']
    exact h.pathEnds rule.via node
  | transitive =>
    rw [hkind] at run run'
    exact h.reachFirst run run'
  | propertyMatch =>
    rw [hkind] at run run'
    exact h.matching run run'
  | byType =>
    rw [hkind] at run run'
    rw [← Except.ok.inj run, ← Except.ok.inj run']
    intro target
    rw [List.mem_filter, List.mem_filter, h.mem_keys]

end Found

end GraphView

end GraphWorkbench
