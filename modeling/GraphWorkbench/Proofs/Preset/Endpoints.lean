import Mathlib.Data.List.Find
import Mathlib.Data.List.Nodup
import GraphWorkbench.Proofs.Document.Validity
import GraphWorkbench.Proofs.Preset.Audit
/-!
The two tests of the types at the ends of an edge. A relationship allows two types when it declares
them as its ends, and it fits them when besides no list of allowed relationships shuts it out. Either
test looks at both ways round unless the relationship is directed. So what fits is allowed, and the
two differ only where there are lists.

Definitions are looked up in two ways as well: a preset finds the first one of an id, and the checks
of elements find the last one. In an accepted preset ids are told apart, and the two are the same.
-/
namespace GraphWorkbench

namespace Relationship

variable {r : Relationship} {source target : NodeType} {s t : String}

/-- The types are declared as the ends of the relationship, this way round. -/
def Declares (r : Relationship) (source target : String) : Prop :=
  (wildcard ∈ r.sourceTypes ∨ source ∈ r.sourceTypes) ∧
    (wildcard ∈ r.targetTypes ∨ target ∈ r.targetTypes)

/-- The relationship is in the lists of allowed relationships that the types have for edges this way
round. -/
def PassesLists (r : Relationship) (source target : NodeType) : Prop :=
  (∀ names, source.outgoing = some names → r.id ∈ names) ∧
    ∀ names, target.incoming = some names → r.id ∈ names

theorem leads_iff_declares :
    r.Leads source target ↔ r.Declares source.id target.id ∧ r.PassesLists source target := by
  constructor
  · intro h
    exact ⟨⟨h.source_declared, h.target_declared⟩, h.outgoing, h.incoming⟩
  · rintro ⟨⟨hsource, htarget⟩, houtgoing, hincoming⟩
    exact ⟨hsource, htarget, houtgoing, hincoming⟩

/-- What is allowed is declared one way round, or the other unless the relationship is directed. -/
theorem allows_iff :
    r.allows s t = true ↔ r.Declares s t ∨ (r.directionality ≠ .directed ∧ r.Declares t s) := by
  have hdeclares : ∀ a b, (declares r.sourceTypes a && declares r.targetTypes b) = true ↔
      r.Declares a b := fun a b => by
    rw [Bool.and_eq_true, declares_iff, declares_iff]
    rfl
  rw [← hdeclares s t, ← hdeclares t s, allows]
  -- the other way round is looked at only when this one fails
  cases hforward : declares r.sourceTypes s && declares r.targetTypes t with
  | true => simp
  | false =>
    by_cases hdirected : r.directionality = .directed
    · simp [hdirected]
    · simp [hdirected]

/-- What fits is declared and passes the lists, one way round, or the other unless the relationship
is directed. -/
theorem fits_iff_declares :
    r.fits source target = true ↔
      (r.Declares source.id target.id ∧ r.PassesLists source target) ∨
        (r.directionality ≠ .directed ∧
          r.Declares target.id source.id ∧ r.PassesLists target source) := by
  rw [fits_iff, Fits, leads_iff_declares, leads_iff_declares]

theorem allows_of_fits (h : r.fits source target = true) :
    r.allows source.id target.id = true := by
  rw [allows_iff]
  rcases fits_iff_declares.mp h with ⟨hdeclares, _⟩ | ⟨hdirected, hdeclares, _⟩
  · exact .inl hdeclares
  · exact .inr ⟨hdirected, hdeclares⟩

/-- The two tests differ only where a list shuts out the relationship. -/
theorem fits_eq_allows (forth : r.PassesLists source target) (back : r.PassesLists target source) :
    r.fits source target = r.allows source.id target.id := by
  rw [Bool.eq_iff_iff, fits_iff_declares, allows_iff]
  simp only [forth, back, and_true]

theorem fits_comm (undirected : r.directionality ≠ .directed) :
    r.fits source target = r.fits target source := by
  rw [Bool.eq_iff_iff, fits_iff, fits_iff]
  simp only [Fits, ne_eq, undirected, not_false_eq_true, true_and]
  exact or_comm

theorem allows_comm (undirected : r.directionality ≠ .directed) :
    r.allows s t = r.allows t s := by
  rw [Bool.eq_iff_iff, allows_iff, allows_iff]
  simp only [ne_eq, undirected, not_false_eq_true, true_and]
  exact or_comm

end Relationship

/-- The type has no list of the only relationships that may come in or go out. -/
def NodeType.Unrestricted (t : NodeType) : Prop := t.incoming = none ∧ t.outgoing = none

theorem Relationship.passesLists_of_unrestricted {r : Relationship} {source target : NodeType}
    (hsource : source.Unrestricted) (htarget : target.Unrestricted) :
    r.PassesLists source target := by
  simp [PassesLists, hsource.2, htarget.1]

section Lookup

/-! Looking a definition up by its id: the first one, the last one, or the one in a table that is
filled with them one after the other. -/

variable {α : Type} {key : α → String} {as : List α} {id : String}

theorem Entries.get?_merge_map (under : List (String × α)) :
    get? id (merge under (as.map fun a => (key a, a))) =
      (as.reverse.find? (key · == id)).or (get? id under) := by
  induction as generalizing under with
  | nil => rfl
  | cons a rest ih =>
    have hstep : merge under ((a :: rest).map fun a => (key a, a)) =
        merge (put (key a) a under) (rest.map fun a => (key a, a)) := rfl
    rw [hstep, ih, get?_put, List.reverse_cons, List.find?_append]
    by_cases hkey : id = key a
    · simp [hkey]
    · have hother : (key a == id) = false := by simpa using Ne.symm hkey
      simp [hkey, hother]

/-- A table that is filled with definitions one after the other holds the last one of each id. -/
theorem Table.get?_ofEntries_map (key : α → String) (as : List α) (id : String) :
    (ofEntries (as.map fun a => (key a, a))).get? id = as.reverse.find? (key · == id) :=
  (Entries.get?_merge_map []).trans Option.or_none

/-- Where keys are told apart, the first one is the last one. -/
theorem find?_reverse_of_nodup (distinct : (as.map key).Nodup) :
    as.reverse.find? (key · == id) = as.find? (key · == id) := by
  refine List.find?_eq_find?_of_perm (List.reverse_perm as) ?_
  -- no two of them are of the id, so their order does not matter
  rintro a ⟨ha, hkeyA⟩ b ⟨hb, hkeyB⟩
  have hkeys : key a = key b := by
    rw [beq_iff_eq] at hkeyA hkeyB
    rw [hkeyA, hkeyB]
  exact List.inj_on_of_nodup_map distinct (List.mem_reverse.mp ha) (List.mem_reverse.mp hb) hkeys

variable {p : Preset}

theorem Preset.governing?_eq_get? :
    p.governing? id = (Table.ofEntries (p.nodeTypes.map fun t => (t.id, t))).get? id :=
  (Table.get?_ofEntries_map NodeType.id p.nodeTypes id).symm

theorem Preset.ruling?_eq_get? :
    p.ruling? id = (Table.ofEntries (p.relationships.map fun r => (r.id, r))).get? id :=
  (Table.get?_ofEntries_map Relationship.id p.relationships id).symm

/-- Without ids that are told apart the two ways of looking up may differ. -/
example :
    let n : NodeType := { id := "host", name := "First", style := { color := "#000000" } }
    let p : Preset :=
      { id := "net", name := "Net", version := "2.0.0"
        nodeTypes := [n, { n with name := "Last" }] }
    (p.nodeType? "host").map (·.name) = some "First" ∧
      (p.governing? "host").map (·.name) = some "Last" := by
  decide

namespace Preset.WellFormed

theorem governing?_eq_nodeType? (h : p.WellFormed) : p.governing? id = p.nodeType? id :=
  find?_reverse_of_nodup h.types_unique

theorem ruling?_eq_relationship? (h : p.WellFormed) : p.ruling? id = p.relationship? id :=
  find?_reverse_of_nodup h.relationships_unique

/-- An edge of a valid document is one that its relationship allows, by the definitions that the
preset itself finds. -/
theorem allows_of_valid {d : Document} {e : Edge} (h : p.WellFormed) (valid : d.Valid p)
    (he : e ∈ d.edges.values) :
    ∃ r source target, p.relationship? e.typeId = some r ∧
      d.nodes.get? e.source = some source ∧ d.nodes.get? e.target = some target ∧
      r.allows source.typeId target.typeId = true := by
  obtain ⟨r, hruled, hjoins, _⟩ := valid.edges e he
  obtain ⟨source, target, sourceType, targetType, hsource, htarget, hsourceType, htargetType,
    hfits⟩ := hjoins
  refine ⟨r, source, target, h.ruling?_eq_relationship? ▸ hruled, hsource, htarget, ?_⟩
  have hallows := Relationship.allows_of_fits (Relationship.fits_iff.mpr hfits)
  rwa [Preset.id_of_governing? hsourceType, Preset.id_of_governing? htargetType] at hallows

end Preset.WellFormed

end Lookup

namespace Audit

open Relationship

variable {candidate : Json} {p : Preset}

/-- In an accepted preset the two tests of ends agree. What fits is allowed; where neither type has
a list of allowed relationships, what is allowed fits; and where direction does not count, neither
test minds which end comes first. The checks of elements find the definitions that the preset does. -/
theorem validate_endpoints (h : validate candidate = .ok (.ok p)) :
    (∀ r ∈ p.relationships, ∀ source ∈ p.nodeTypes, ∀ target ∈ p.nodeTypes,
      (r.fits source target = true → r.allows source.id target.id = true) ∧
      (source.Unrestricted → target.Unrestricted →
        r.fits source target = r.allows source.id target.id) ∧
      (r.directionality ≠ .directed →
        r.fits source target = r.fits target source ∧
          r.allows source.id target.id = r.allows target.id source.id)) ∧
      ∀ id, p.governing? id = p.nodeType? id ∧ p.ruling? id = p.relationship? id := by
  have hwell := wellFormed_of_validate h
  constructor
  · intro r _ source _ target _
    refine ⟨allows_of_fits, ?_, ?_⟩
    · intro hsource htarget
      exact fits_eq_allows (passesLists_of_unrestricted hsource htarget)
        (passesLists_of_unrestricted htarget hsource)
    · intro undirected
      exact ⟨fits_comm undirected, allows_comm undirected⟩
  · intro id
    exact ⟨hwell.governing?_eq_nodeType?, hwell.ruling?_eq_relationship?⟩

/-- A link between hosts and rooms, which are declared the other way round, and a vault, whose lists
shut out what would be allowed. -/
theorem validate_endpoints_vault :
    let host : NodeType := { id := "host", name := "Host", style := { color := "#000000" } }
    let room : NodeType := { id := "room", name := "Room", style := { color := "#000000" } }
    let vault : NodeType :=
      { id := "vault", name := "Vault", incoming := some [], outgoing := some ["stands-in"]
        style := { color := "#000000" } }
    let standsIn : Relationship :=
      { id := "stands-in", name := "Stands in", sourceTypes := ["host"], targetTypes := ["room"],
        directionality := .bidirectional }
    let opens : Relationship :=
      { id := "opens", name := "Opens", sourceTypes := ["*"], targetTypes := ["vault", "room"] }
    let p : Preset :=
      { id := "net", name := "Net", version := "2.0.0", nodeTypes := [host, room, vault],
        relationships := [standsIn, opens] }
    validate p.toJson = .ok (.ok p) ∧ room.Unrestricted ∧ host.Unrestricted ∧
      standsIn.fits room host = standsIn.allows "room" "host" ∧
      standsIn.fits room host = standsIn.fits host room ∧ standsIn.fits room host = true ∧
      opens.fits vault room = false ∧ opens.allows "vault" "room" = true ∧
      p.governing? "vault" = p.nodeType? "vault" := by
  intro host room vault standsIn opens p
  have haccepted : validate p.toJson = .ok (.ok p) := by decide +kernel
  obtain ⟨hagree, hfound⟩ := validate_endpoints haccepted
  have hhost : host.Unrestricted := ⟨rfl, rfl⟩
  have hroom : room.Unrestricted := ⟨rfl, rfl⟩
  obtain ⟨_, hequal, hturned⟩ := hagree standsIn (by simp [p]) room (by simp [p]) host (by simp [p])
  exact ⟨haccepted, hroom, hhost, hequal hroom hhost, (hturned (by decide)).1, by decide, by decide,
    by decide, (hfound "vault").1⟩

end Audit

end GraphWorkbench
