import GraphWorkbench.Proofs.Stix.Outcomes
/-!
Nothing of an object is lost in what is created for it. An element of the graph holds some fields of
its object in places of its own and keeps the others as they are; put together, they are the object
again. Of a sighting, this takes all of its edges.
-/
namespace GraphWorkbench

open Outcome

universe u

namespace Entries

variable {α : Type u} {name : String} {a b given entries : List (String × α)}
  {f : String → Bool}

theorem get?_append : get? name (a ++ b) = (get? name a).or (get? name b) := by
  induction a with
  | nil => rfl
  | cons e rest ih =>
    obtain ⟨k, v⟩ := e
    rw [List.cons_append, get?, get?]
    split
    · rfl
    · exact ih

theorem get?_filter_keys : get? name (entries.filter fun e => f e.1) =
    if f name then get? name entries else none := by
  induction entries with
  | nil => exact (ite_self none).symm
  | cons e rest ih =>
    obtain ⟨k, v⟩ := e
    by_cases hkeep : f k = true
    · rw [List.filter_cons_of_pos (by exact hkeep), get?, get?, ih]
      by_cases hk : k = name
      · rw [if_pos hk, if_pos hk, if_pos (hk ▸ hkeep)]
      · rw [if_neg hk, if_neg hk]
    · rw [List.filter_cons_of_neg (by exact hkeep), ih]
      by_cases hk : k = name
      · rw [if_neg (hk ▸ hkeep), if_neg (hk ▸ hkeep)]
      · rw [get?, if_neg hk]

/-- The same stands under each name, in whatever order. -/
def Same (a b : List (String × α)) : Prop := ∀ name, get? name a = get? name b

/-- What was taken out, put in front of what was kept, makes the same entries again. -/
theorem same_append_filter {names : List String} (hnames : keys given = names)
    (taken : ∀ e ∈ given, get? e.1 entries = some e.2) :
    Same (given ++ entries.filter fun e => !names.contains e.1) entries := by
  intro name
  rw [get?_append, get?_filter_keys (f := fun name => !names.contains name)]
  cases hget : get? name given with
  | some value =>
    -- what was taken out stands in front, whether it was kept as well or not
    rw [taken _ (mem_of_get? hget)]
    rfl
  | none =>
    have hkept : name ∉ names := by
      rw [← hnames, ← get?_isSome_iff, hget]
      exact Bool.false_ne_true
    rw [Option.none_or, if_pos (by simpa using hkept)]

end Entries

namespace Stix

open Schema (Fields)

variable {p : Preset} {o : Options} {d : Document} {k : Known} {c c' : Candidate} {v : ValidObject}
  {raw : Fields}

/-! What elements tell of objects. -/

/-- The properties of an element hold a type, and fields of an object that have no other place. -/
structure Keeps (properties : Table Json) (type : String) (kept : Fields) : Prop where
  type : properties.get? "stixType" = some (.str type)
  rest : properties.get? "stix" = some (.obj kept)

/-- The name of an object, when it is more than blanks. -/
def nameOf? (raw : Fields) : Option String :=
  match Entries.get? "name" raw with
  | some (.str name) => if name.toList.all Text.isBlank then none else some name
  | _ => none

/-- The fields that a node tells of an object, which may have a name. -/
def nodeTells (n : Node) (type : String) (name : Option String) (kept : Fields) : Fields :=
  [("type", .str type), ("id", .str n.id)] ++ (name.toList.map fun name => ("name", .str name)) ++ kept

/-- A node gives back its object. Where the object has no name, or none but blanks, the name is a label
of the node alone, and only a null or these blanks are lost. -/
def NodeRetells (n : Node) (raw : Fields) : Prop :=
  ∃ type kept, Keeps n.properties type kept ∧
    match nameOf? raw with
    | some name => n.properties.get? "name" = some (.str name) ∧
      Entries.Same (nodeTells n type (some name) kept) raw
    | none => (∀ value, Entries.get? "name" raw = some value →
        value = .null ∨ ∃ name, value = .str name ∧ name.toList.all Text.isBlank = true) ∧
      Entries.Same (nodeTells n type none kept) (Entries.erase "name" raw)

/-- An edge gives back the relationship that it was made for. -/
def RelationshipRetells (e : Edge) (raw : Fields) : Prop :=
  ∃ type kept, Keeps e.properties type kept ∧
    Entries.Same ([("type", .str "relationship"), ("id", .str e.id), ("relationship_type", .str type),
      ("source_ref", .str e.source), ("target_ref", .str e.target)] ++ kept) raw

/-- An edge keeps all of a sighting that no edge of a sighting has a place of its own for. -/
def SightingKept (e : Edge) (raw : Fields) : Prop :=
  ∃ kept, Keeps e.properties "sighting" kept ∧
    ∀ name, Entries.get? name kept =
      if name ∈ ["type", "id", "sighting_of_ref", "where_sighted_refs"] then none
      else Entries.get? name raw

/-- The edges of a sighting, in their order, and what any of them keeps give back the sighting. -/
def SightingRetells (id : String) (edges : List Edge) (raw : Fields) : Prop :=
  ∀ e ∈ edges, ∃ kept, Keeps e.properties "sighting" kept ∧
    Entries.Same ([("type", .str "sighting"), ("id", .str id), ("sighting_of_ref", .str e.source),
      ("where_sighted_refs", .ofStrings (edges.map Edge.target))] ++ kept) raw

/-- A created item gives back its object, or what it can of a sighting. -/
def Retells (item : Item) (v : ValidObject) : Prop :=
  match v.kind, item.mutation with
  | .relationship, .addEdge e => RelationshipRetells e v.raw
  | .sighting, .addEdge e => SightingKept e v.raw ∧
    Entries.get? "sighting_of_ref" v.raw = some (.str e.source)
  | _, .addNode n => v.kind.connects = false ∧ NodeRetells n v.raw
  | _, _ => False

/-! What is made for an object. -/

def nodeProperties (v : ValidObject) : Table Json :=
  .ofEntries [("name", .str (labelOf v.raw)), ("stixType", .str v.kind.word),
    ("stix", without nodeFields v.raw)]

def relationshipProperties (v : ValidObject) : Table Json :=
  .ofEntries [("stixType", .str (textAt v.raw "relationship_type")),
    ("stix", without relationshipFields v.raw)]

/-- The items that mapping makes for an object. -/
inductive Made (v : ValidObject) : Item → Prop
  | node {n : Node} (thing : v.kind.connects = false) (named : n.id = v.id)
      (holds : n.properties = nodeProperties v) : Made v ⟨v.index, v.id, v.kind, .addNode n⟩
  | relationship {e : Edge} (kind : v.kind = .relationship) (named : e.id = v.id)
      (starts : e.source = textAt v.raw "source_ref") (ends : e.target = textAt v.raw "target_ref")
      (holds : e.properties = relationshipProperties v) : Made v ⟨v.index, e.id, v.kind, .addEdge e⟩
  | sighting {e : Edge} (kind : v.kind = .sighting)
      (starts : e.source = textAt v.raw "sighting_of_ref")
      (holds : e.properties = sightingProperties v) : Made v ⟨v.index, e.id, v.kind, .addEdge e⟩

theorem Made.index_eq {item : Item} (h : Made v item) : item.index = v.index := by
  cases h <;> rfl

theorem Made.sighting_edge {item : Item} {e : Edge} (h : Made v item) (hkind : v.kind = .sighting)
    (hedge : item.mutation = .addEdge e) :
    e.source = textAt v.raw "sighting_of_ref" ∧ e.properties = sightingProperties v := by
  cases h with
  | node => exact nomatch hedge
  | relationship kind => exact nomatch kind.symm.trans hkind
  | sighting kind starts holds =>
    obtain rfl := Mutation.addEdge.inj hedge
    exact ⟨starts, holds⟩

/-- A candidate asks for nothing but items of one sort. -/
def Candidate.Only (P : Item → Prop) (c : Candidate) : Prop := ∀ item ∈ c.items, P item

section Making

variable {P : Item → Prop}

theorem stageNode_only {stage stage' : NodeStage} (h : stageNode p o d stage v = .ok stage')
    (made : ∀ n : Node, n.id = v.id → n.properties = nodeProperties v →
      P ⟨v.index, v.id, v.kind, .addNode n⟩)
    (hstage : stage.candidate.Only P) : stage'.candidate.Only P := by
  unfold stageNode at h
  simp only at h
  -- filtered out, of no type, or there already: nothing is asked for
  split at h
  · obtain rfl := Except.ok.inj h
    exact hstage
  · split at h
    · obtain rfl := Except.ok.inj h
      exact hstage
    · split at h
      · obtain rfl := Except.ok.inj h
        exact hstage
      · obtain ⟨node, hnode, h⟩ := bind_eq_ok.mp h
        obtain rfl := Except.ok.inj h
        obtain ⟨_, _, hnode⟩ := bind_eq_ok.mp hnode
        obtain rfl := Except.ok.inj hnode
        exact List.forall_mem_append.mpr ⟨hstage, List.forall_mem_singleton.mpr (made _ rfl rfl)⟩

theorem addEdge_only {e : Edge} (made : P ⟨v.index, e.id, v.kind, .addEdge e⟩) (hc : c.Only P) :
    (addEdge d c v e).Only P := by
  unfold addEdge
  split
  · exact hc
  · exact List.forall_mem_append.mpr ⟨hc, List.forall_mem_singleton.mpr made⟩

theorem resolve_only {refs : List String} {known : Bool} (h : resolve k c v refs = (c', known))
    (hc : c.Only P) : c'.Only P := by
  have hitems := items_resolve (c := c) (v := v) k refs
  rw [h] at hitems
  unfold Candidate.Only
  rwa [hitems]

theorem stageRelationship_only (made : ∀ e : Edge, e.id = v.id →
      e.source = textAt v.raw "source_ref" → e.target = textAt v.raw "target_ref" →
      e.properties = relationshipProperties v → P ⟨v.index, e.id, v.kind, .addEdge e⟩)
    (hc : c.Only P) : (stageRelationship p o d k c v).Only P := by
  unfold stageRelationship
  simp only
  split
  · exact hc
  · split
    next hresolve => exact resolve_only hresolve hc
    next hresolve =>
      exact addEdge_only (made _ rfl rfl rfl rfl) (resolve_only hresolve hc)

theorem stageSighting_only (made : ∀ e : Edge, e.source = textAt v.raw "sighting_of_ref" →
      e.properties = sightingProperties v → P ⟨v.index, e.id, v.kind, .addEdge e⟩)
    (hc : c.Only P) : (stageSighting p o d k c v).Only P := by
  unfold stageSighting
  simp only
  split
  · exact hc
  · split
    · exact hc
    · split
      next hresolve => exact resolve_only hresolve hc
      next hresolve =>
        refine List.foldlRecOn _ _ (resolve_only hresolve hc) fun c hc place _ => ?_
        exact addEdge_only (made _ rfl rfl) hc

/-- Mapping asks for nothing but what it makes for the objects. -/
theorem mapToGraph_made {valid : List ValidObject} (h : mapToGraph p o d valid = .ok c) :
    c.Only fun item => ∃ v ∈ valid, Made v item := by
  obtain ⟨stage, hstage, hc⟩ := bind_eq_ok.mp h
  obtain rfl := Except.ok.inj hc
  have hnodes : stage.candidate.Only fun item => ∃ v ∈ valid, Made v item := by
    refine foldlM_induct_mem (P := fun s : NodeStage => s.candidate.Only _) ?_ hstage nofun
    intro before v after hv hstep hbefore
    obtain ⟨hv, hthing⟩ := List.mem_filter.mp hv
    refine stageNode_only hstep (fun n hnamed hholds => ⟨v, hv, ?_⟩) hbefore
    exact .node (by simpa using hthing) hnamed hholds
  refine List.foldlRecOn _ _ hnodes fun c hc v hv => ?_
  obtain ⟨hv, hconnects⟩ := List.mem_filter.mp hv
  unfold stageConnection
  simp only
  split
  · exact hc
  · split
    next hkind =>
      refine stageRelationship_only (fun e hid hsource htarget hholds => ⟨v, hv, ?_⟩) hc
      exact .relationship hkind hid hsource htarget hholds
    next hkind =>
      have hsighting : v.kind = .sighting := by
        cases hk : v.kind <;> simp_all [Kind.connects]
      refine stageSighting_only (fun e hsource hholds => ⟨v, hv, ?_⟩) hc
      exact .sighting hsighting hsource hholds

end Making

/-! What is made for an object gives it back. -/

section Retelling

variable {name s : String} {value : Json} {n : Node} {e : Edge} {item : Item}

theorem textAt_of_get? (h : Entries.get? name raw = some (.str s)) : textAt raw name = s := by
  rw [textAt, h]
  rfl

/-- A text that an object must have is there. -/
theorem get?_textAt_of_must {read : Json → Schema.Decoded String} (h : v.Read)
    (hf : .must name .str read ∈ ownFields v.kind)
    (texts : ∀ {value s}, read value = .ok s → value = .str s) :
    Entries.get? name v.raw = some (.str (textAt v.raw name)) := by
  obtain ⟨_, he⟩ := h.exists_decode (List.mem_append_right _ hf)
  obtain ⟨value, s, hvalue, hread⟩ := exists_value_of_must he
  rw [texts hread] at hvalue
  rw [textAt_of_get? hvalue, hvalue]

theorem labelOf_of_get? (h : Entries.get? "name" raw = some (.str s))
    (hblank : ¬ s.toList.all Text.isBlank = true) : labelOf raw = s := by
  unfold labelOf
  rw [h]
  exact if_neg hblank

theorem get?_name_of_nameOf? (h : nameOf? raw = some name) :
    Entries.get? "name" raw = some (.str name) ∧ labelOf raw = name := by
  unfold nameOf? at h
  split at h
  next hget =>
    split at h
    · exact nomatch h
    next hblank =>
      obtain rfl := Option.some.inj h
      exact ⟨hget, labelOf_of_get? hget hblank⟩
  next => exact nomatch h

/-- A value that an object may have was read, if it is there. -/
theorem exists_read_of_may {α : Type} {write : α → Json} {read : Json → Schema.Decoded α} (h : v.Read)
    (hf : .may name write read ∈ ownFields v.kind) (hvalue : Entries.get? name v.raw = some value) :
    ∃ o, Schema.nullable read value = .ok o := by
  obtain ⟨_, he⟩ := h.exists_decode (List.mem_append_right _ hf)
  obtain ⟨_, written, _, hread, _⟩ := (Schema.Decoded.ap_eq_ok_iff _ _ _).mp he
  change Schema.optional v.raw name name .null _ = .ok written at hread
  rw [Schema.optional, Schema.lookup, Option.or_self, hvalue] at hread
  obtain ⟨_, o, _, ho, _⟩ := (Schema.Decoded.ap_eq_ok_iff _ _ _).mp (Schema.under_eq_ok_iff.mp hread)
  exact ⟨o, ho⟩

/-- Without a name, a thing has none, a null or blanks. -/
theorem value_of_nameOf?_none (h : v.Read) (hthing : v.kind.connects = false)
    (hnone : nameOf? v.raw = none) (hvalue : Entries.get? "name" v.raw = some value) :
    value = .null ∨ ∃ s, value = .str s ∧ s.toList.all Text.isBlank = true := by
  have hmem : .must "name" .str Schema.nonEmpty ∈ ownFields v.kind ∨
      .may "name" .str Schema.string ∈ ownFields v.kind := by
    cases hkind : v.kind <;> simp [hkind, Kind.connects] at hthing <;>
      simp [ownFields, namedFields, nameField]
  have htext : value = .null ∨ ∃ s, value = .str s := by
    rcases hmem with hmust | hmay
    · have htext := get?_textAt_of_must h hmust Schema.eq_str_of_nonEmpty
      exact .inr ⟨_, Option.some.inj (hvalue.symm.trans htext)⟩
    · obtain ⟨s, hread⟩ := exists_read_of_may h hmay hvalue
      rw [Schema.eq_ofString?_of_nullable hread]
      cases s with
      | none => exact .inl rfl
      | some s => exact .inr ⟨s, rfl⟩
  rcases htext with rfl | ⟨s, rfl⟩
  · exact .inl rfl
  · refine .inr ⟨s, rfl, ?_⟩
    by_contra hblank
    simp [nameOf?, hvalue, hblank] at hnone

theorem keeps_nodeProperties : Keeps (nodeProperties v) v.kind.word
    (v.raw.filter fun f => !nodeFields.contains f.1) := ⟨rfl, rfl⟩

theorem keeps_relationshipProperties :
    Keeps (relationshipProperties v) (textAt v.raw "relationship_type")
      (v.raw.filter fun f => !relationshipFields.contains f.1) := ⟨rfl, rfl⟩

theorem keeps_sightingProperties : Keeps (sightingProperties v) "sighting"
    (v.raw.filter fun f => !sightingFields.contains f.1) := by
  unfold sightingProperties
  split <;> exact ⟨rfl, rfl⟩

theorem node_retells (h : v.Read) (hid : Entries.get? "id" v.raw = some (.str v.id))
    (hthing : v.kind.connects = false) (named : n.id = v.id)
    (holds : n.properties = nodeProperties v) : NodeRetells n v.raw := by
  have htype := type_of_read h
  refine ⟨_, _, holds ▸ keeps_nodeProperties, ?_⟩
  cases hname : nameOf? v.raw with
  | some name =>
    obtain ⟨hget, hlabel⟩ := get?_name_of_nameOf? hname
    refine ⟨by rw [holds, ← hlabel]; rfl, ?_⟩
    rw [nodeTells, named]
    exact Entries.same_append_filter rfl (by simp [htype, hid, hget])
  | none =>
    refine ⟨fun value => value_of_nameOf?_none h hthing hname, ?_⟩
    have hkept : (v.raw.filter fun f => !nodeFields.contains f.1) =
        (Entries.erase "name" v.raw).filter fun f => !(["type", "id"].contains f.1) := by
      rw [Entries.erase, List.filter_filter]
      refine List.filter_congr fun f _ => ?_
      simp [nodeFields, Bool.and_assoc]
    -- the name is no field of the object any more, so that only its type and id are told
    rw [nodeTells, named, hkept]
    refine Entries.same_append_filter rfl ?_
    simp [Entries.get?_erase_of_ne, htype, hid]

theorem relationship_retells (h : v.Read) (hid : Entries.get? "id" v.raw = some (.str v.id))
    (hkind : v.kind = .relationship) (named : e.id = v.id)
    (starts : e.source = textAt v.raw "source_ref") (ends : e.target = textAt v.raw "target_ref")
    (holds : e.properties = relationshipProperties v) : RelationshipRetells e v.raw := by
  have htype := type_of_read h
  rw [hkind] at htype
  have hname : Entries.get? "relationship_type" v.raw = _ :=
    get?_textAt_of_must h (by simp [hkind, ownFields]) Schema.eq_str_of_nonEmpty
  have hsource : Entries.get? "source_ref" v.raw = _ :=
    get?_textAt_of_must h (by simp [hkind, ownFields]) fun hread => (reference_eq_ok_iff.mp hread).1
  have htarget : Entries.get? "target_ref" v.raw = _ :=
    get?_textAt_of_must h (by simp [hkind, ownFields]) fun hread => (reference_eq_ok_iff.mp hread).1
  refine ⟨_, _, holds ▸ keeps_relationshipProperties, ?_⟩
  rw [named, starts, ends]
  exact Entries.same_append_filter rfl (by simp [htype, hid, hname, hsource, htarget, Kind.word])

theorem sighting_kept (holds : e.properties = sightingProperties v) : SightingKept e v.raw := by
  refine ⟨_, holds ▸ keeps_sightingProperties, fun name => ?_⟩
  rw [Entries.get?_filter_keys (f := fun name => !sightingFields.contains name)]
  by_cases hname : name ∈ sightingFields
  · rw [if_neg (by simpa using hname)]
    exact (if_pos hname).symm
  · rw [if_pos (by simpa using hname)]
    exact (if_neg hname).symm

theorem get?_sighting_of_ref (h : v.Read) (hkind : v.kind = .sighting) :
    Entries.get? "sighting_of_ref" v.raw = some (.str (textAt v.raw "sighting_of_ref")) :=
  get?_textAt_of_must h (by simp [hkind, ownFields]) fun hread => (reference_eq_ok_iff.mp hread).1

/-- Where a sighting is at some places, all of it is in an edge and the list of these places. -/
theorem sighting_retells (h : v.Read) (hid : Entries.get? "id" v.raw = some (.str v.id))
    (hkind : v.kind = .sighting) (starts : e.source = textAt v.raw "sighting_of_ref")
    (holds : e.properties = sightingProperties v) {places : List String} (any : places ≠ [])
    (given : textsAt v.raw "where_sighted_refs" = places) : ∃ kept, Keeps e.properties "sighting" kept ∧
    Entries.Same ([("type", .str "sighting"), ("id", .str v.id), ("sighting_of_ref", .str e.source),
      ("where_sighted_refs", .ofStrings places)] ++ kept) v.raw := by
  have htype := type_of_read h
  rw [hkind] at htype
  have hthing := get?_sighting_of_ref h hkind
  have hplaces : Entries.get? "where_sighted_refs" v.raw = some (.ofStrings places) := by
    have hlist := placesGiven_of_read hkind h
    rw [given] at hlist
    cases hget : Entries.get? "where_sighted_refs" v.raw with
    | some value =>
      rw [hget] at hlist
      exact congrArg some hlist
    | none =>
      -- a list that is not there holds no place
      rw [hget] at hlist
      exact absurd (List.map_eq_nil_iff.mp (Json.arr.inj hlist).symm) any
  refine ⟨_, holds ▸ keeps_sightingProperties, ?_⟩
  rw [starts]
  exact Entries.same_append_filter rfl (by simp [htype, hid, hthing, hplaces, Kind.word])

/-- Whatever is made for a valid object gives it back. -/
theorem Made.retells (h : Made v item) (hread : v.Read)
    (hid : Entries.get? "id" v.raw = some (.str v.id)) : Retells item v := by
  unfold Retells
  cases h with
  | node thing named holds =>
    have hretells := node_retells hread hid thing named holds
    cases hkind : v.kind <;> simp [hkind, Kind.connects] at thing ⊢ <;> exact hretells
  | relationship kind named starts ends holds =>
    rw [kind]
    exact relationship_retells hread hid kind named starts ends holds
  | sighting kind starts holds =>
    rw [kind]
    exact ⟨sighting_kept holds, starts ▸ get?_sighting_of_ref hread kind⟩

end Retelling

/-! The edges of a sighting, taken together. -/

section Sightings

variable {a : Share} {i : Nat} {created : List Item}

/-- The edges among some items, in their order. -/
def edgesOf (items : List Item) : List Edge := (items.filterMap Item.edge?).map Prod.snd

theorem mem_edgesOf {items : List Item} {e : Edge} :
    e ∈ edgesOf items ↔ ∃ item ∈ items, item.mutation = .addEdge e := by
  unfold edgesOf Item.edge?
  simp only [List.mem_map, List.mem_filterMap]
  constructor
  · rintro ⟨entry, ⟨item, hitem, hentry⟩, rfl⟩
    refine ⟨item, hitem, ?_⟩
    split at hentry
    next hmutation => rw [hmutation, ← Option.some.inj hentry]
    next => exact nomatch hentry
  · rintro ⟨item, hitem, hmutation⟩
    exact ⟨(e.id, e), ⟨item, hitem, by rw [hmutation]⟩, rfl⟩

/-- No place of a sighting has more than one edge. So when there are as many edges as places, they go
to these places, in their order. -/
theorem edgesOf_each {id : String × Nat → String} {source : String} {places : List (String × Nat)}
    {shares : List Share}
    (each : List.Forall₂ (fun place => EdgeShare v (id place) source place.1) places shares) :
    (edgesOf (Share.sum shares).created).length ≤ places.length ∧
      ((edgesOf (Share.sum shares).created).length = places.length →
        (edgesOf (Share.sum shares).created).map Edge.target = places.map Prod.fst) := by
  induction each with
  | nil => exact ⟨Nat.le_refl _, fun _ => rfl⟩
  | @cons place a rest shares hedge _ ih =>
    obtain ⟨hle, htargets⟩ := ih
    have hsum : edgesOf (Share.sum (a :: shares)).created =
        edgesOf a.created ++ edgesOf (Share.sum shares).created := by
      simp [edgesOf]
    rw [hsum, List.length_append, List.length_cons, List.map_append, List.map_cons]
    cases hedge with
    | @created e named starts ends =>
      have hone : edgesOf [⟨v.index, e.id, v.kind, .addEdge e⟩] = [e] := rfl
      rw [hone, List.length_singleton, List.map_singleton, ends]
      refine ⟨by omega, fun hall => ?_⟩
      rw [htargets (by omega), List.singleton_append]
    | _ =>
      -- no edge for this place, and too few of them for all
      have hnone : (edgesOf []).length = 0 := rfl
      rw [hnone]
      exact ⟨by omega, fun hall => by omega⟩

theorem edgesOf_sightingShare (h : SightingShare v a)
    (all : (edgesOf a.created).length = (textsAt v.raw "where_sighted_refs").length) :
    (edgesOf a.created).map Edge.target = textsAt v.raw "where_sighted_refs" := by
  cases h with
  | places given any each =>
    have htexts := textsAt_of_getD given
    rw [htexts] at all ⊢
    rw [(edgesOf_each each).2 (by rw [all, List.length_zipIdx]), List.zipIdx_map_fst]
  | _ => exact (List.length_eq_zero_iff.mp all.symm).symm

end Sightings

section Run

variable {s s' : Store} {origin : Bundle.Origin} {cancelled : Bool} {summary : Summary}

/-- What an import created, it made for the valid objects of its bundle, and it accounts for it. -/
theorem created_of_importInto (h : importInto s o origin cancelled = (s', .ok summary)) :
    ∃ b created, Bundle.read origin = .ok (.ok b) ∧
      s'.document.nodes.entries = s.document.nodes.entries ++ created.filterMap Item.node? ∧
      s'.document.edges.entries = s.document.edges.entries ++ created.filterMap Item.edge? ∧
      (∀ item ∈ created, ∃ v ∈ (validate b).valid, Made v item) ∧ Accounted o b created summary := by
  cases hprepare : prepare s o origin with
  | error e =>
    rw [importInto_of_error hprepare] at h
    exact nomatch congrArg Prod.snd h
  | ok prepared =>
    obtain ⟨b, report, c, accepted⟩ := prepared
    cases cancelled with
    | true =>
      rw [importInto_of_cancelled hprepare] at h
      exact nomatch congrArg Prod.snd h
    | false =>
      obtain ⟨hread, rfl, mapped, hmapped, hstage⟩ := prepare_eq_ok_iff.mp hprepare
      have hadds := mapToGraph_adds hmapped
      rw [importInto_of_commit hprepare (commit_accepted hadds hstage).1] at h
      obtain ⟨rfl, hsummary⟩ := Prod.mk.inj h
      obtain rfl := Except.ok.inj hsummary
      obtain ⟨draft', hstaged⟩ := staged_of_stageItems hstage
      obtain ⟨hnodes, hedges⟩ := hstaged.adds hadds
      have hdocument := hstaged.commit_document.1
      obtain ⟨issues, hsifted, rfl⟩ := sifted_of_stageItems hstage
      obtain ⟨order, hperm, htaken⟩ := mapToGraph_takesAll (fun _ => read_of_mem_valid) hmapped
      -- what was accepted is some of what was made
      refine ⟨b, accepted, hread, hdocument ▸ hnodes, hdocument ▸ hedges, fun item hitem => ?_,
        accounted_of_takesAll hperm htaken hsifted⟩
      exact mapToGraph_made hmapped item (hstaged.sublist.subset hitem)

/-- The edges that were created for a sighting go to its places, when there are as many of them. -/
theorem targets_of_accounted {b : Bundle} {created : List Item} (h : Accounted o b created summary)
    (hv : v ∈ (validate b).valid) (hkind : v.kind = .sighting)
    (all : (edgesOf (created.filter (·.index = v.index))).length =
      (textsAt v.raw "where_sighted_refs").length) :
    (edgesOf (created.filter (·.index = v.index))).map Edge.target =
      textsAt v.raw "where_sighted_refs" := by
  obtain ⟨x, hx, _, hentry⟩ := h.entries v.index _ (entry_of_mem_valid hv).1
  have hvalid : (outcomes b)[v.index]? = some (.valid v) := getElem?_index (mem_valid_iff.mp hv)
  obtain rfl : x = .valid v := Option.some.inj (hx.symm.trans hvalid)
  have hshare : ObjectShare o v ((summary.share created).about v.index) := hentry
  unfold ObjectShare at hshare
  split at hshare
  next =>
    have hnone : created.filter (·.index = v.index) = [] := congrArg Share.created hshare
    rw [hnone] at all ⊢
    exact (List.length_eq_zero_iff.mp all.symm).symm
  next =>
    rw [hkind] at hshare
    exact edgesOf_sightingShare hshare all

end Run

/-- What was created for a bundle gives back its objects. -/
structure Lossless (b : Bundle) (created : List Item) : Prop where
  /-- Each item gives back the object at its place in the bundle. -/
  items : ∀ item ∈ created, ∃ v ∈ (validate b).valid,
    b.objects[item.index]? = some (.obj v.raw) ∧ v.index = item.index ∧ Retells item v
  /-- A sighting with an edge to each of its places is given back by these edges, in their order. -/
  sightings : ∀ v ∈ (validate b).valid, v.kind = .sighting →
    (edgesOf (created.filter (·.index = v.index))).length =
      (textsAt v.raw "where_sighted_refs").length →
    SightingRetells v.id (edgesOf (created.filter (·.index = v.index))) v.raw

/-- An import that returns put what it created behind what the document had, and lost nothing of it. -/
theorem importInto_lossless {s s' : Store} {origin : Bundle.Origin} {cancelled : Bool}
    {summary : Summary} (h : importInto s o origin cancelled = (s', .ok summary)) :
    ∃ b created, Bundle.read origin = .ok (.ok b) ∧
      s'.document.nodes.entries = s.document.nodes.entries ++ created.filterMap Item.node? ∧
      s'.document.edges.entries = s.document.edges.entries ++ created.filterMap Item.edge? ∧
      Lossless b created := by
  obtain ⟨b, created, hread, hnodes, hedges, hmade, haccounted⟩ := created_of_importInto h
  refine ⟨b, created, hread, hnodes, hedges, ?items, ?sightings⟩
  case items =>
    intro item hitem
    obtain ⟨v, hv, hmade⟩ := hmade item hitem
    refine ⟨v, hv, hmade.index_eq ▸ (entry_of_mem_valid hv).1, hmade.index_eq.symm, ?_⟩
    exact hmade.retells (read_of_mem_valid hv) (id_of_mem_valid hv).2.1
  case sightings =>
    intro v hv hkind all e he
    have htargets := targets_of_accounted haccounted hv hkind all
    have hplaces := List.ne_nil_of_mem (List.mem_map_of_mem (f := Edge.target) he)
    obtain ⟨item, hitem, hedge⟩ := mem_edgesOf.mp he
    obtain ⟨hitem, hindex⟩ := List.mem_filter.mp hitem
    obtain ⟨u, hu, hmade⟩ := hmade item hitem
    -- the item was made for this sighting, since no other object stands at its place
    obtain rfl : u = v := List.inj_on_of_nodup_map (nodup_index_valid b) hu hv
      (hmade.index_eq.symm.trans (by simpa using hindex))
    obtain ⟨starts, holds⟩ := hmade.sighting_edge hkind hedge
    have hid := (id_of_mem_valid hu).2.1
    exact sighting_retells (read_of_mem_valid hu) hid hkind starts holds hplaces htargets.symm

section Example

def openPreset : Preset :=
  { hostsPreset with relationships := [{ id := "link", name := "Link", sourceTypes := ["host"],
                                         targetTypes := ["host"], multiplicity := .manyToMany }] }

def openStore : Store :=
  { hostsStore with preset := openPreset, document := .blank openPreset }

/-- Hosts of which one has fields of its own, a link, and a sighting at two places. -/
def toldBundle : Json :=
  .obj [("objects", .arr [
    dated "identity" "identity--a" [("name", .str "a"), ("stix", .obj [("stixType", .null)])],
    dated "identity" "identity--b" [("name", .str " "), ("x", .arr [.int 1])],
    uses "relationship--a" "identity--a" "identity--b",
    dated "sighting" "sighting--a" [("sighting_of_ref", .str "identity--b"),
      ("where_sighted_refs", .arr [.str "identity--a", .str "identity--b"]), ("count", .int 2)]])]

theorem importInto_lossless_toldBundle :
    ∃ s' summary, importInto openStore seenOptions (.value toldBundle) false = (s', .ok summary) ∧
      (summary.nodesCreated, summary.edgesCreated) = (2, 3) ∧
      ∃ b created, Bundle.read (.value toldBundle) = .ok (.ok b) ∧
        s'.document.nodes.entries = created.filterMap Item.node? ∧
        s'.document.edges.entries = created.filterMap Item.edge? ∧ Lossless b created := by
  have hcounts : (importInto openStore seenOptions (.value toldBundle) false).2.toOption.map
      (fun t => (t.nodesCreated, t.edgesCreated)) = some (2, 3) := by
    decide +kernel
  cases hrun : importInto openStore seenOptions (.value toldBundle) false with
  | mk s' outcome =>
    rw [hrun] at hcounts
    obtain ⟨summary, hsome, hcounted⟩ := Option.map_eq_some_iff.mp hcounts
    obtain rfl : outcome = .ok summary := eq_ok_of_toOption hsome
    exact ⟨s', summary, rfl, hcounted, importInto_lossless hrun⟩

end Example

end Stix

end GraphWorkbench
