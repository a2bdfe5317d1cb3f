import GraphWorkbench.Proofs.Outcome
import GraphWorkbench.Proofs.Schema.Reading
import GraphWorkbench.Proofs.Stix.Share
/-!
What mapping makes of each valid object. An object is counted once, and has its own share in what is
asked for and reported; the candidate of a mapping is made of these shares.
-/
namespace GraphWorkbench

open Outcome

namespace Entries

/-- The number of all that is counted under any key. -/
def total (counts : List (String × Nat)) : Nat := counts.foldr (fun e n => e.2 + n) 0

/-- Counting one more of a key adds one to the total. -/
theorem total_put_succ (key : String) (counts : List (String × Nat)) :
    total (put key ((get? key counts).getD 0 + 1) counts) = total counts + 1 := by
  induction counts with
  | nil => rfl
  | cons e rest ih =>
    obtain ⟨k, n⟩ := e
    unfold total at ih ⊢
    by_cases hk : k = key
    · simp only [put, get?, hk, if_true, Option.getD_some, List.foldr_cons]
      omega
    · simp only [put, get?, hk, if_false, List.foldr_cons, ih]
      omega

theorem total_eq_of_perm {counts counts' : List (String × Nat)} (h : counts.Perm counts') :
    total counts = total counts' := by
  refine h.foldr_eq' (fun a _ b _ n => ?_) 0
  omega

end Entries

def Table.total (t : Table Nat) : Nat := Entries.total t.entries

namespace Stix

variable {p : Preset} {o : Options} {d : Document} {v : ValidObject} {c c' c'' : Candidate}
  {a b : Share}

def Warning.isFiltered (w : Warning) : Bool :=
  match w.cause with
  | .filteredReference _ => true
  | _ => false

/-- What a candidate asks for and reports. -/
def Candidate.share (c : Candidate) : Share :=
  { created := c.items, issues := c.issues, warnings := c.warnings }

/-- A candidate goes on from another one by a share, a number of counted objects, and a number of
objects left out. What is skipped are these and the references to objects left out. -/
structure Candidate.Goes (c c' : Candidate) (a : Share) (counted left : Nat) : Prop where
  share : c'.share = c.share ++ a
  skipped : c'.skipped = c.skipped + left + a.warnings.countP Warning.isFiltered
  counted : c'.byType.total = c.byType.total + counted

namespace Candidate.Goes

theorem refl (c : Candidate) : c.Goes c {} 0 0 := ⟨(Share.append_nil _).symm, rfl, rfl⟩

theorem trans {m n k l : Nat} (h : c.Goes c' a m n) (h' : c'.Goes c'' b k l) :
    c.Goes c'' (a ++ b) (m + k) (n + l) := by
  refine ⟨?_, ?_, ?_⟩
  · rw [h'.share, h.share, Share.append_assoc]
  · rw [h'.skipped, h.skipped, Share.warnings_append, List.countP_append]
    omega
  · rw [h'.counted, h.counted]
    omega

theorem count (c : Candidate) (type : String) : c.Goes (c.count type) {} 1 0 :=
  ⟨(Share.append_nil _).symm, rfl, Entries.total_put_succ type c.byType.entries⟩

theorem skip (c : Candidate) : c.Goes c.skip {} 0 1 := ⟨(Share.append_nil _).symm, rfl, rfl⟩

theorem complain (c : Candidate) (v : ValidObject) (cause : IssueCause) :
    ∃ x : Issue, x.index = v.index ∧ c.Goes (c.complain v cause) { issues := [x] } 0 0 := by
  refine ⟨{ index := v.index, id := some v.id, type := some v.kind.word, cause }, rfl, ?_, rfl, rfl⟩
  ext1
  · exact (List.append_nil _).symm
  · rfl
  · exact (List.append_nil _).symm
  · rfl

theorem warn {cause : WarningCause} (c : Candidate) (v : ValidObject)
    (h : ∀ ref, cause ≠ .filteredReference ref) :
    c.Goes (c.warn v cause) { warnings := [⟨v.index, v.id, cause⟩] } 0 0 := by
  refine ⟨?_, ?_, rfl⟩
  · ext1
    · exact (List.append_nil _).symm
    · exact (List.append_nil _).symm
    · rfl
    · rfl
  · cases cause with
    | filteredReference ref => exact absurd rfl (h ref)
    | _ => rfl

theorem skipReference (c : Candidate) (v : ValidObject) (ref : String) :
    c.Goes (c.skip.warn v (.filteredReference ref))
      { warnings := [⟨v.index, v.id, .filteredReference ref⟩] } 0 0 := by
  refine ⟨?_, rfl, rfl⟩
  ext1
  · exact (List.append_nil _).symm
  · exact (List.append_nil _).symm
  · rfl
  · rfl

theorem add (c : Candidate) (item : Item) : c.Goes (c.add item) { created := [item] } 0 0 := by
  refine ⟨?_, rfl, rfl⟩
  ext1
  · rfl
  · exact (List.append_nil _).symm
  · exact (List.append_nil _).symm
  · rfl

end Candidate.Goes

/-- The share that mapping plans for an object. Either it has no issue yet or it asks for nothing.
-/
structure Planned (o : Options) (v : ValidObject) (a : Share) : Prop where
  share : ObjectShare o v a
  pure : a.issues = [] ∨ a.created = []

/-- A candidate after an object was taken in: the object is counted, and its share is added. -/
def Candidate.Takes (o : Options) (v : ValidObject) (c c' : Candidate) : Prop :=
  ∃ a, Planned o v a ∧ c.Goes c' a 1 (if o.leavesOut v.kind then 1 else 0)

section Reading

/-- The fields of a valid object are those that it was read from. -/
def ValidObject.Read (v : ValidObject) : Prop := readObject v.kind v.raw = .ok v.fields

theorem exists_decode_of_readKnown {record known : Schema.Fields} {fields : List Field} {f : Field}
    (h : readKnown record fields = .ok known) (hf : f ∈ fields) : ∃ e, f.decode record = .ok e := by
  induction fields generalizing known with
  | nil => simp at hf
  | cons field rest ih =>
    obtain ⟨_, others, hfirst, hrest, _⟩ := (Schema.Decoded.ap_eq_ok_iff _ _ _).mp h
    rcases List.mem_cons.mp hf with rfl | hmem
    · obtain ⟨_, e, _, he, _⟩ := (Schema.Decoded.ap_eq_ok_iff _ _ _).mp hfirst
      exact ⟨e, he⟩
    · exact ih hrest hmem

theorem ValidObject.Read.exists_decode {f : Field} (h : v.Read)
    (hf : f ∈ commonFields v.kind ++ ownFields v.kind) : ∃ e, f.decode v.raw = .ok e := by
  unfold ValidObject.Read readObject at h
  split at h
  next all hall =>
    obtain ⟨_, known, _, hknown, _⟩ := (Schema.Decoded.ap_eq_ok_iff _ _ _).mp hall
    exact exists_decode_of_readKnown hknown hf
  next => exact nomatch h

theorem exists_value_of_must {α : Type} {name : String} {write : α → Json}
    {read : Json → Schema.Decoded α} {record : Schema.Fields} {e : String × Json}
    (h : (Field.must name write read).decode record = .ok e) :
    ∃ value a, Entries.get? name record = some value ∧ read value = .ok a := by
  obtain ⟨_, written, _, hwritten, _⟩ := (Schema.Decoded.ap_eq_ok_iff _ _ _).mp h
  have hrequired : Schema.required record name name (Field.normal write read) = .ok written :=
    hwritten
  rw [Schema.required, Schema.lookup, Option.or_self] at hrequired
  cases hget : Entries.get? name record with
  | none =>
    rw [hget] at hrequired
    exact absurd (Schema.under_eq_ok_iff.mp hrequired) (Schema.fault_ne_ok _ _)
  | some value =>
    rw [hget] at hrequired
    have hvalue := Schema.under_eq_ok_iff.mp hrequired
    obtain ⟨_, a, _, hread, _⟩ := (Schema.Decoded.ap_eq_ok_iff _ _ _).mp hvalue
    exact ⟨value, a, rfl, hread⟩

theorem type_of_read (h : v.Read) : Entries.get? "type" v.raw = some (.str v.kind.word) := by
  let type : Field := .must "type" .str (Schema.oneOf [(v.kind.word, v.kind.word)])
  have hmem : type ∈ commonFields v.kind ++ ownFields v.kind := by simp [commonFields, type]
  obtain ⟨_, he⟩ := h.exists_decode hmem
  obtain ⟨value, a, hget, hread⟩ := exists_value_of_must he
  cases value with
  | str word =>
    have hword : word = v.kind.word := by
      by_contra hne
      simp [Schema.oneOf, Entries.get?, Ne.symm hne, Schema.fault] at hread
    rw [hget, hword]
  | _ => exact absurd hread (Schema.fault_ne_ok _ _)

theorem idOf?_of_read (h : v.Read) : ∃ id, idOf? v.raw = some id := by
  let id : Field := .must "id" .str reference
  have hmem : id ∈ commonFields v.kind ++ ownFields v.kind := by simp [commonFields, id]
  obtain ⟨_, he⟩ := h.exists_decode hmem
  obtain ⟨value, a, hget, hread⟩ := exists_value_of_must he
  refine ⟨a, ?_⟩
  rw [idOf?, hget, (Schema.eq_str_of_formed hread).1]
  rfl

/-- The places of a sighting that was read are all the values of their list, which may be left
out. -/
theorem placesGiven_of_read (hkind : v.kind = .sighting) (h : v.Read) :
    (Entries.get? "where_sighted_refs" v.raw).getD (.arr []) =
      .arr ((textsAt v.raw "where_sighted_refs").map .str) := by
  let places : Field := .many "where_sighted_refs" .str Schema.string
  have hmem : places ∈ commonFields v.kind ++ ownFields v.kind := by
    rw [hkind]
    simp [ownFields, places]
  obtain ⟨e, he⟩ := h.exists_decode hmem
  obtain ⟨_, written, _, hread, _⟩ := (Schema.Decoded.ap_eq_ok_iff _ _ _).mp he
  have hlookup : Schema.lookup "where_sighted_refs" "where_sighted_refs" v.raw =
      Entries.get? "where_sighted_refs" v.raw := by
    rw [Schema.lookup, Option.or_self]
  unfold textsAt
  cases hget : Entries.get? "where_sighted_refs" v.raw with
  | none => rfl
  | some value =>
    have hvalue : places.read value = .ok written := by
      have hoptional : Schema.optional v.raw "where_sighted_refs" "where_sighted_refs" (.arr [])
        places.read = .ok written := hread
      rw [Schema.optional, hlookup, hget] at hoptional
      exact Schema.under_eq_ok_iff.mp hoptional
    obtain ⟨_, ss, _, hlist, _⟩ := (Schema.Decoded.ap_eq_ok_iff _ _ _).mp hvalue
    cases value with
    | arr items =>
      have hitems : items = ss.map .str :=
        Schema.eq_map_str_of_forall₂ (Schema.forall₂_of_listOf hlist)
      have htexts : (ss.map Json.str).filterMap Json.str? = ss := by
        simp [List.filterMap_map, Function.comp_def, Json.str?]
      simp only [hitems, htexts, Option.getD_some]
    | _ => exact absurd hlist (Schema.fault_ne_ok _ _)

end Reading

section Objects

theorem planned_of_leavesOut (h : o.leavesOut v.kind = true) : Planned o v {} := by
  refine ⟨?_, .inl rfl⟩
  rw [ObjectShare, if_pos h]

theorem objectShare_of_node (hkept : o.leavesOut v.kind = false) (hthing : v.kind.connects = false)
    (h : NodeShare v a) : ObjectShare o v a := by
  rw [ObjectShare, hkept]
  cases hkind : v.kind <;> simp [hkind, Kind.connects] at hthing ⊢ <;> exact h

theorem objectShare_of_relationship (hkept : o.leavesOut v.kind = false)
    (hkind : v.kind = .relationship) (h : RelationshipShare v a) : ObjectShare o v a := by
  rw [ObjectShare, hkept, hkind]
  simpa using h

theorem objectShare_of_sighting (hkept : o.leavesOut v.kind = false) (hkind : v.kind = .sighting)
    (h : SightingShare v a) : ObjectShare o v a := by
  rw [ObjectShare, hkept, hkind]
  simpa using h

/-- A thing that is wanted is counted, and then it comes to a node, an issue or a remark. -/
theorem stageNode_takes {stage stage' : NodeStage} (h : stageNode p o d stage v = .ok stage')
    (hthing : v.kind.connects = false) : stage.candidate.Takes o v stage'.candidate := by
  have hleaves : o.leavesOut v.kind = !o.accepts v.kind.word := by simp [Options.leavesOut, hthing]
  have hcount := Candidate.Goes.count stage.candidate v.kind.word
  -- what is wanted comes to a share of its own after it was counted
  have htaken : ∀ {a}, o.accepts v.kind.word = true → NodeShare v a →
      (a.issues = [] ∨ a.created = []) →
      (stage.candidate.count v.kind.word).Goes stage'.candidate a 0 0 →
      stage.candidate.Takes o v stage'.candidate := by
    intro a haccepts hshare hpure hgoes
    have hkept : o.leavesOut v.kind = false := by rw [hleaves, haccepts, Bool.not_true]
    refine ⟨a, ⟨objectShare_of_node hkept hthing hshare, hpure⟩, ?_⟩
    rw [hkept]
    exact hcount.trans hgoes
  unfold stageNode at h
  simp only at h
  split at h
  next hrefuses =>
    obtain rfl := Except.ok.inj h
    have hleft : o.leavesOut v.kind = true := hleaves.trans hrefuses
    refine ⟨{}, planned_of_leavesOut hleft, ?_⟩
    rw [if_pos hleft]
    exact hcount.trans (.skip _)
  next hrefuses =>
    have haccepts : o.accepts v.kind.word = true := by simpa using hrefuses
    split at h
    · obtain rfl := Except.ok.inj h
      obtain ⟨x, hx, hgoes⟩ := Candidate.Goes.complain (stage.candidate.count v.kind.word) v
        (.unmappedType v.kind.word p.id)
      exact htaken haccepts (.issue hx) (.inr rfl) hgoes
    · split at h
      · obtain rfl := Except.ok.inj h
        exact htaken haccepts .existing (.inl rfl) (.warn _ v (by simp))
      · obtain ⟨node, hnode, h⟩ := bind_eq_ok.mp h
        obtain rfl := Except.ok.inj h
        obtain ⟨_, _, hnode⟩ := bind_eq_ok.mp hnode
        have hid : node.id = v.id := (Except.ok.inj hnode) ▸ rfl
        exact htaken haccepts (.created hid) (.inl rfl) (.add _ _)

/-- References that are not all known make an issue or a remark, and nothing else. -/
theorem resolve_goes {k : Known} {refs : List String} {known : Bool}
    (h : resolve k c v refs = (c', known)) :
    known = true ∧ c' = c ∨
      known = false ∧ ((∃ x : Issue, x.index = v.index ∧ c.Goes c' { issues := [x] } 0 0) ∨
        ∃ ref, c.Goes c' { warnings := [⟨v.index, v.id, .filteredReference ref⟩] } 0 0) := by
  induction refs with
  | nil =>
    obtain ⟨rfl, rfl⟩ := Prod.mk.inj h
    exact .inl ⟨rfl, rfl⟩
  | cons ref rest ih =>
    rw [resolve] at h
    split at h
    · exact ih h
    · split at h
      · obtain ⟨rfl, rfl⟩ := Prod.mk.inj h
        exact .inr ⟨rfl, .inr ⟨ref, .skipReference c v ref⟩⟩
      · obtain ⟨rfl, rfl⟩ := Prod.mk.inj h
        exact .inr ⟨rfl, .inl (Candidate.Goes.complain c v _)⟩

theorem addEdge_goes (c : Candidate) (e : Edge) : ∃ a, EdgeShare v e.id e.source e.target a ∧
    a.issues = [] ∧ c.Goes (addEdge d c v e) a 0 0 := by
  unfold addEdge
  split
  · exact ⟨_, .existing, rfl, .warn c v (by simp)⟩
  · exact ⟨_, .created rfl rfl rfl, rfl, .add c _⟩

theorem stageRelationship_goes (k : Known) (c : Candidate) : ∃ a, RelationshipShare v a ∧
    (a.issues = [] ∨ a.created = []) ∧ c.Goes (stageRelationship p o d k c v) a 0 0 := by
  unfold stageRelationship
  simp only
  split
  next =>
    obtain ⟨x, hx, hgoes⟩ := Candidate.Goes.complain c v
      (.unmappedRelationship (textAt v.raw "relationship_type") p.id)
    exact ⟨_, .edge (.issue hx), .inr rfl, hgoes⟩
  next =>
    split
    next hresolve =>
      rcases resolve_goes hresolve with ⟨hknown, _⟩ | ⟨_, ⟨x, hx, hgoes⟩ | ⟨ref, hgoes⟩⟩
      · exact nomatch hknown
      · exact ⟨_, .edge (.issue hx), .inr rfl, hgoes⟩
      · exact ⟨_, .filtered ref, .inl rfl, hgoes⟩
    next hresolve =>
      rcases resolve_goes hresolve with ⟨_, rfl⟩ | ⟨hknown, _⟩
      · obtain ⟨a, hedge, hnone, hgoes⟩ := addEdge_goes (d := d) (v := v) _ _
        exact ⟨a, .edge hedge, .inl hnone, hgoes⟩
      · exact nomatch hknown

/-- Each place of a sighting gets a share of its own. -/
theorem foldl_addEdge_goes (edge : String × Nat → Edge) (places : List (String × Nat))
    (c : Candidate) : ∃ shares,
      List.Forall₂ (fun place => EdgeShare v (edge place).id (edge place).source
        (edge place).target) places shares ∧ (Share.sum shares).issues = [] ∧
      c.Goes (places.foldl (fun c place => addEdge d c v (edge place)) c) (.sum shares) 0 0 := by
  induction places generalizing c with
  | nil => exact ⟨[], .nil, rfl, .refl c⟩
  | cons place rest ih =>
    obtain ⟨a, hedge, hnone, hgoes⟩ := addEdge_goes (d := d) (v := v) c (edge place)
    obtain ⟨shares, hedges, hnones, hrest⟩ := ih (addEdge d c v (edge place))
    refine ⟨a :: shares, .cons hedge hedges, ?_, hgoes.trans hrest⟩
    rw [Share.sum_cons, Share.issues_append, hnone, hnones]
    rfl

theorem stageSighting_goes (k : Known) (c : Candidate)
    (hgiven : (Entries.get? "where_sighted_refs" v.raw).getD (.arr []) =
      .arr ((textsAt v.raw "where_sighted_refs").map .str)) : ∃ a, SightingShare v a ∧
    (a.issues = [] ∨ a.created = []) ∧ c.Goes (stageSighting p o d k c v) a 0 0 := by
  unfold stageSighting
  simp only
  split
  next =>
    obtain ⟨x, hx, hgoes⟩ := Candidate.Goes.complain c v
      (.noSightingRelationship o.sightingRelationship p.id)
    exact ⟨_, .issue hx, .inr rfl, hgoes⟩
  next =>
    split
    next => exact ⟨_, .empty, .inl rfl, .warn c v (by simp)⟩
    next hany =>
      split
      next hresolve =>
        rcases resolve_goes hresolve with ⟨hknown, _⟩ | ⟨_, ⟨x, hx, hgoes⟩ | ⟨ref, hgoes⟩⟩
        · exact nomatch hknown
        · exact ⟨_, .issue hx, .inr rfl, hgoes⟩
        · exact ⟨_, .filtered ref, .inl rfl, hgoes⟩
      next hresolve =>
        rcases resolve_goes hresolve with ⟨_, rfl⟩ | ⟨hknown, _⟩
        · -- the edges differ in their ids, which are numbered where there are several places
          let places := textsAt v.raw "where_sighted_refs"
          let edge (place : String × Nat) : Edge :=
            { id := placeId v places.length place.2, typeId := o.sightingRelationship
              source := textAt v.raw "sighting_of_ref", target := place.1
              properties := sightingProperties v }
          obtain ⟨shares, hedges, hnone, hgoes⟩ :=
            foldl_addEdge_goes (d := d) (v := v) edge places.zipIdx _
          exact ⟨_, .places hgiven (by simpa using hany) hedges, .inl hnone, hgoes⟩
        · exact nomatch hknown

/-- A connection is counted; if it is wanted, it comes to what its edges come to. -/
theorem stageConnection_takes (k : Known) (c : Candidate) (hconnects : v.kind.connects = true)
    (hread : v.Read) : c.Takes o v (stageConnection p o d k c v) := by
  have hleaves : o.leavesOut v.kind = (!o.relationships || !o.accepts v.kind.word) := by
    simp [Options.leavesOut, hconnects]
  -- a connection is counted whether or not it is left out
  have hcount := Candidate.Goes.count c v.kind.word
  unfold stageConnection
  simp only [← hleaves]
  by_cases hleft : o.leavesOut v.kind = true
  · refine ⟨{}, planned_of_leavesOut hleft, ?_⟩
    rw [if_pos hleft, if_pos hleft]
    exact hcount.trans (.skip _)
  · have hkept : o.leavesOut v.kind = false := by simpa using hleft
    rw [if_neg hleft]
    cases hkind : v.kind with
    | relationship =>
      obtain ⟨a, hshare, hpure, hgoes⟩ :=
        stageRelationship_goes (p := p) (o := o) (d := d) (v := v) k (c.count v.kind.word)
      refine ⟨a, ⟨objectShare_of_relationship hkept hkind hshare, hpure⟩, ?_⟩
      rw [if_neg hleft]
      rw [hkind] at hcount hgoes
      exact hcount.trans hgoes
    | sighting =>
      have hgiven := placesGiven_of_read hkind hread
      obtain ⟨a, hshare, hpure, hgoes⟩ :=
        stageSighting_goes (p := p) (o := o) (d := d) k (c.count v.kind.word) hgiven
      refine ⟨a, ⟨objectShare_of_sighting hkept hkind hshare, hpure⟩, ?_⟩
      rw [if_neg hleft]
      rw [hkind] at hcount hgoes
      exact hcount.trans hgoes
    | _ => simp [hkind, Kind.connects] at hconnects

end Objects

section Mapping

/-- A candidate after some objects were taken in, one after another. -/
def Candidate.TakesAll (o : Options) (vs : List ValidObject) (c c' : Candidate) : Prop :=
  ∃ shares, List.Forall₂ (Planned o) vs shares ∧
    c.Goes c' (.sum shares) vs.length (vs.countP fun v => o.leavesOut v.kind)

namespace Candidate.TakesAll

variable {vs ws : List ValidObject}

theorem nil (c : Candidate) : c.TakesAll o [] c := ⟨[], .nil, .refl c⟩

theorem cons (h : c.Takes o v c') (h' : c'.TakesAll o vs c'') : c.TakesAll o (v :: vs) c'' := by
  obtain ⟨a, hplanned, hgoes⟩ := h
  obtain ⟨shares, hshares, hrest⟩ := h'
  refine ⟨a :: shares, .cons hplanned hshares, ?_⟩
  rw [List.length_cons, List.countP_cons, Nat.add_comm vs.length, Nat.add_comm (vs.countP _)]
  exact hgoes.trans hrest

theorem append (h : c.TakesAll o vs c') (h' : c'.TakesAll o ws c'') :
    c.TakesAll o (vs ++ ws) c'' := by
  obtain ⟨shares, hshares, hgoes⟩ := h
  obtain ⟨others, hothers, hrest⟩ := h'
  refine ⟨shares ++ others, List.rel_append hshares hothers, ?_⟩
  rw [List.length_append, List.countP_append, Share.sum_append]
  exact hgoes.trans hrest

end Candidate.TakesAll

theorem stageNodes_takesAll {vs : List ValidObject} {stage stage' : NodeStage}
    (hthings : ∀ v ∈ vs, v.kind.connects = false)
    (h : vs.foldlM (stageNode p o d) stage = .ok stage') :
    stage.candidate.TakesAll o vs stage'.candidate := by
  induction vs generalizing stage with
  | nil =>
    obtain rfl := Except.ok.inj h
    exact .nil _
  | cons v rest ih =>
    obtain ⟨hthing, hrest⟩ := List.forall_mem_cons.mp hthings
    rw [List.foldlM_cons] at h
    obtain ⟨mid, hmid, h⟩ := bind_eq_ok.mp h
    exact .cons (stageNode_takes hmid hthing) (ih hrest h)

theorem stageConnections_takesAll {vs : List ValidObject} (k : Known) (c : Candidate)
    (hconnections : ∀ v ∈ vs, v.kind.connects = true ∧ v.Read) :
    c.TakesAll o vs (vs.foldl (stageConnection p o d k) c) := by
  induction vs generalizing c with
  | nil => exact .nil c
  | cons v rest ih =>
    obtain ⟨⟨hconnects, hread⟩, hrest⟩ := List.forall_mem_cons.mp hconnections
    exact .cons (stageConnection_takes k c hconnects hread) (ih _ hrest)

/-- A mapping takes in all objects, the things before the connections. -/
theorem mapToGraph_takesAll {valid : List ValidObject} (hread : ∀ v ∈ valid, v.Read)
    (h : mapToGraph p o d valid = .ok c) :
    ∃ order : List ValidObject, order.Perm valid ∧ Candidate.TakesAll o order {} c := by
  obtain ⟨stage, hstage, h⟩ := bind_eq_ok.mp h
  obtain rfl := Except.ok.inj h
  have hthings : ∀ v ∈ valid.filter fun v => !v.kind.connects, v.kind.connects = false := by
    intro v hv
    simpa using (List.mem_filter.mp hv).2
  have hconnections : ∀ v ∈ valid.filter fun v => v.kind.connects,
      v.kind.connects = true ∧ v.Read := by
    intro v hv
    obtain ⟨hmem, hconnects⟩ := List.mem_filter.mp hv
    exact ⟨hconnects, hread v hmem⟩
  -- all objects are taken in, those that connect others after those that do not
  refine ⟨_, ?_, (stageNodes_takesAll hthings hstage).append
    (stageConnections_takesAll _ _ hconnections)⟩
  exact List.perm_append_comm.trans (List.filter_append_perm _ valid)

end Mapping

end Stix

end GraphWorkbench
