import GraphWorkbench.Preset.Audit
import GraphWorkbench.Proofs.Outcome
import GraphWorkbench.Proofs.Schema.Telling
/-!
When validation comes to an answer, and what it says then. A search looks some values of a candidate
up among words, and reads some as patterns; it comes to its end exactly when all of the first kind
can be looked up, and when of all of the second kind it can be told whether they are patterns. A
candidate that is refused has at least one thing wrong.
-/
namespace GraphWorkbench

open Outcome

section Readers

open Schema (Explains Tells)

theorem explains_natAbove {bound : Int} : Explains (natAbove bound) :=
  fun v => (Tells.ok _).ap (Explains.integer.checked v)

theorem explains_natBetween {least most : Int} : Explains (natBetween least most) :=
  fun v => (Tells.ok _).ap (Explains.integer.checked v)

theorem explains_natFrom {least : Int} : Explains (natFrom least) :=
  fun v => (Tells.ok _).ap (Explains.integer.checked v)

theorem Property.explains : Explains Property.decode :=
  .record fun _ => (Tells.ok Property.mk)
    |>.ap (.required .nonEmpty)
    |>.ap (.required .nonEmpty)
    |>.ap (.optional .oneOf)
    |>.ap (.optional .boolean)
    |>.ap (.optional (.nullable (.listOf .string)))
    |>.ap (.optional .anything)

theorem Rule.explains : Explains Rule.decode :=
  .record fun _ => (Tells.ok Rule.mk)
    |>.ap (.required .nonEmpty)
    |>.ap (.required .oneOf)
    |>.ap (.required .anything)
    |>.ap (.optional (.nullable .string))

theorem NodeStyle.explains : Explains NodeStyle.decode :=
  .record fun _ => (Tells.ok NodeStyle.mk)
    |>.ap (.required .formed)
    |>.ap (.optional (.nullable .formed))
    |>.ap (.optional (.nullable .formed))
    |>.ap (.optional (.nullable .string))
    |>.ap (.optional (.nullable .oneOf))

theorem NodeType.explains : Explains NodeType.decode :=
  .record fun _ => (Tells.ok NodeType.mk)
    |>.ap (.required .formed)
    |>.ap (.required .nonEmpty)
    |>.ap (.optional .string)
    |>.ap (.optional .string)
    |>.ap (.optional (.nullable .string))
    |>.ap (.optional (.listOf Property.explains))
    |>.ap (.optional (.listOf Rule.explains))
    |>.ap (.optional (.nullable (.listOf .string)))
    |>.ap (.optional (.nullable (.listOf .string)))
    |>.ap (.required NodeStyle.explains)

theorem EdgeStyle.explains : Explains EdgeStyle.decode :=
  .record fun _ => (Tells.ok EdgeStyle.mk)
    |>.ap (.optional .formed)
    |>.ap (.optional (.checked .number))
    |>.ap (.optional .oneOf)
    |>.ap (.optional .boolean)

theorem Relationship.explains : Explains Relationship.decode :=
  .record fun _ => (Tells.ok Relationship.mk)
    |>.ap (.required .formed)
    |>.ap (.required .nonEmpty)
    |>.ap (.optional .string)
    |>.ap (.required (.checked (.listOf .string)))
    |>.ap (.required (.checked (.listOf .string)))
    |>.ap (.optional .oneOf)
    |>.ap (.optional .oneOf)
    |>.ap (.optional EdgeStyle.explains)
    |>.ap (.optional (.listOf Property.explains))

theorem Styling.explains : Explains Styling.decode :=
  .record fun _ => (Tells.ok Styling.mk)
    |>.ap (.optional .oneOf)
    |>.ap (.optional .formed)
    |>.ap (.optional .formed)
    |>.ap (.optional .formed)
    |>.ap (.optional .string)

theorem Behavior.explains : Explains Behavior.decode :=
  .record fun _ => (Tells.ok Behavior.mk)
    |>.ap (.optional .boolean)
    |>.ap (.optional explains_natAbove)
    |>.ap (.optional explains_natBetween)
    |>.ap (.optional explains_natAbove)
    |>.ap (.optional explains_natAbove)
    |>.ap (.optional .boolean)
    |>.ap (.optional (.nullable explains_natFrom))

theorem PathStep.explains : Explains PathStep.decode :=
  .record fun _ => (Tells.ok PathStep.mk)
    |>.ap (.required .nonEmpty)
    |>.ap (.optional .oneOf)

theorem Derivation.explains : Explains Derivation.decode :=
  .record fun _ => (Tells.ok Derivation.mk)
    |>.ap (.required .oneOf)
    |>.ap (.optional (.nullable .string))
    |>.ap (.optional (.listOf PathStep.explains))
    |>.ap (.optional (.nullable (.listOf .string)))
    |>.ap (.optional (.nullable .string))
    |>.ap (.optional .anyTable)
    |>.ap (.optional .oneOf)
    |>.ap (.optional explains_natBetween)

theorem Mapping.explains : Explains Mapping.decode :=
  .record fun _ => (Tells.ok Mapping.mk)
    |>.ap (.required .formed)
    |>.ap (.optional (.nullable .string))
    |>.ap (.optional (.nullable .string))
    |>.ap (.optional .integer)
    |>.ap (.optional .string)
    |>.ap (.required Derivation.explains)

theorem Preset.explains : Explains Preset.decode :=
  .record fun _ => (Tells.ok Preset.mk)
    |>.ap (.required .formed)
    |>.ap (.required .nonEmpty)
    |>.ap (.required .formed)
    |>.ap (.optional .string)
    |>.ap (.optional (.nullable .string))
    |>.ap (.required (.checked (.listOf NodeType.explains)))
    |>.ap (.optional (.listOf Relationship.explains))
    |>.ap (.optional Styling.explains)
    |>.ap (.optional Behavior.explains)
    |>.ap (.optional (.listOf Mapping.explains))

end Readers

namespace Audit

open Schema (Fields Step)

/-- The limit of a check on patterns is a pattern, or breaks a rule of patterns; any other check is
a value that can be looked up. -/
def LimitSearchable (check limit : Json) : Prop :=
  if check = .str "pattern" then
    Pattern.compile limit.text ≠ .error .tooManyRepeats ∧
      Pattern.compile limit.text ≠ .error .flagConflict
  else isKey check = true

/-- What is looked up in a node type can be looked up. -/
structure NodeTypeSearchable (fields : Fields) : Prop where
  properties : ∀ q ∈ objects (member fields "properties"), isKey (member q.2 "type") = true
  rules : ∀ r ∈ objects (field fields "validationRules" "validation_rules"),
    LimitSearchable (member r.2 "rule") (member r.2 "value")

/-- The kind of the rule of a mapping, if it has a rule, can be looked up. -/
def MappingSearchable (fields : Fields) : Prop :=
  ∀ rule, member fields "rule" = .obj rule → isKey (member rule "kind") = true

/-- What is looked up in a candidate can be looked up. -/
structure Searchable (fields : Fields) : Prop where
  nodeTypes : ∀ t ∈ objects (field fields "nodeTypes" "node_types"), NodeTypeSearchable t.2
  mappings : ∀ m ∈ objects (field fields "ontologyMappings" "ontology_mappings"),
    MappingSearchable m.2

variable {place : List Step} {names : Names}

theorem answers_among {v : Json} (words : List String) :
    Answers (among v words) ↔ isKey v = true := by
  cases v <;> simp [Answers, among, isKey]

theorem answers_collect {α : Type} {f : α → Except Fault (List Violation)} {as : List α} :
    Answers (collect f as) ↔ ∀ a ∈ as, Answers (f a) := by
  induction as with
  | nil => simp [collect, Answers.ok]
  | cons a rest ih =>
    rw [List.forall_mem_cons, ← ih, collect]
    exact Answers.bind_iff fun here _ => Answers.bind_of_next fun others => .ok _

theorem answers_propertyFindings {q : Nat × Fields} :
    Answers (propertyFindings place q) ↔ isKey (member q.2 "type") = true := by
  rw [← answers_among ["enum", "multiselect"]]
  refine Answers.bind_of_next fun chooses => ?_
  split
  · split <;> exact .ok _
  · exact .ok _

theorem answers_limitFindings (place : List Step) {check limit : Json} :
    Answers (limitFindings place check limit) ↔ LimitSearchable check limit := by
  unfold limitFindings LimitSearchable
  by_cases hpattern : check = .str "pattern"
  · simp only [hpattern, if_true]
    cases Pattern.compile limit.text with
    | ok pattern => simp [Answers, pure_eq_ok]
    | error problem =>
      cases problem <;> simp [Answers, pure_eq_ok, throw, throwThe, MonadExceptOf.throw]
  · simp only [hpattern, if_false]
    rw [← answers_among ["min", "max", "min-length", "max-length"]]
    refine Answers.bind_of_next fun numeric => ?_
    split
    · split <;> exact .ok _
    · split
      · split <;> exact .ok _
      · exact .ok _

theorem answers_ruleFindings {properties : List String} {r : Nat × Fields} :
    Answers (ruleFindings place properties r) ↔
      LimitSearchable (member r.2 "rule") (member r.2 "value") := by
  rw [← answers_limitFindings (place ++ [.key "validationRules", .index r.1] ++ [.key "value"])]
  exact Answers.bind_of_next fun limit => .ok _

theorem answers_nodeTypeFindings {t : Nat × Fields} :
    Answers (nodeTypeFindings names t) ↔ NodeTypeSearchable t.2 := by
  have hproperties : ∀ place : List Step,
      Answers (collect (propertyFindings place) (objects (member t.2 "properties"))) ↔
        ∀ q ∈ objects (member t.2 "properties"), isKey (member q.2 "type") = true := by
    simp only [answers_collect, answers_propertyFindings, implies_true]
  have hrules : ∀ (place : List Step) (properties : List String),
      Answers (collect (ruleFindings place properties)
        (objects (field t.2 "validationRules" "validation_rules"))) ↔
        ∀ r ∈ objects (field t.2 "validationRules" "validation_rules"),
          LimitSearchable (member r.2 "rule") (member r.2 "value") := by
    simp only [answers_collect, answers_ruleFindings, implies_true]
  have hboth : Answers (nodeTypeFindings names t) ↔ _ :=
    Answers.bind_iff fun options _ => (Answers.bind_of_next fun rules => .ok _).trans (hrules _ _)
  rw [hboth, hproperties]
  exact ⟨fun h => ⟨h.1, h.2⟩, fun h => ⟨h.properties, h.rules⟩⟩

theorem answers_derivationFindings (names : Names) (place : List Step) {fields : Fields} :
    Answers (derivationFindings names place fields) ↔ isKey (member fields "kind") = true := by
  rw [← answers_among ["neighbors", "path", "transitive"]]
  exact Answers.bind_of_next fun walks => .ok _

theorem answers_mappingFindings {m : Nat × Fields} :
    Answers (mappingFindings names m) ↔ MappingSearchable m.2 := by
  obtain ⟨i, fields⟩ := m
  unfold mappingFindings MappingSearchable
  cases hrule : member fields "rule" with
  | obj rule =>
    simp only [hrule, Json.obj.injEq, forall_eq']
    rw [← answers_derivationFindings names ([.key "ontologyMappings", .index i] ++ [.key "rule"])]
    exact Answers.bind_of_next fun derivation => .ok _
  | _ => simp [hrule, Answers, pure_eq_ok]

theorem answers_crossFindings {fields : Fields} :
    Answers (crossFindings fields) ↔ Searchable fields := by
  have htypes : ∀ names : Names,
      Answers (collect (nodeTypeFindings names) (objects (field fields "nodeTypes" "node_types"))) ↔
        ∀ t ∈ objects (field fields "nodeTypes" "node_types"), NodeTypeSearchable t.2 := by
    simp only [answers_collect, answers_nodeTypeFindings, implies_true]
  have hmappings : ∀ names : Names,
      Answers (collect (mappingFindings names)
        (objects (field fields "ontologyMappings" "ontology_mappings"))) ↔
        ∀ m ∈ objects (field fields "ontologyMappings" "ontology_mappings"),
          MappingSearchable m.2 := by
    simp only [answers_collect, answers_mappingFindings, implies_true]
  have hboth : Answers (crossFindings fields) ↔ _ :=
    Answers.bind_iff fun types _ =>
      (Answers.bind_of_next fun derivations => .ok _).trans (hmappings _)
  rw [hboth, htypes]
  exact ⟨fun h => ⟨h.1, h.2⟩, fun h => ⟨h.nodeTypes, h.mappings⟩⟩

/-- Validation comes to an answer on everything but an object in which something cannot be looked
up. -/
theorem answers_validate {candidate : Json} :
    Answers (validate candidate) ↔ ∀ fields, candidate = .obj fields → Searchable fields := by
  cases candidate with
  | obj fields =>
    simp only [Json.obj.injEq, forall_eq']
    rw [← answers_crossFindings]
    unfold validate
    cases Preset.decode (.obj fields) with
    | ok p => exact Answers.bind_of_next fun cross => .ok _
    | error issues => exact Answers.bind_of_next fun cross => .ok _
  | _ => exact iff_of_true (.ok _) (by simp)

/-- A refusal holds at least one thing that is wrong. -/
theorem ne_nil_of_validate {candidate : Json} {violations : List Violation}
    (h : validate candidate = .ok (.error violations)) : violations ≠ [] := by
  cases candidate with
  | obj fields =>
    unfold validate at h
    cases hdecode : Preset.decode (.obj fields) with
    | ok p =>
      simp only [hdecode] at h
      obtain ⟨cross, _, h⟩ := bind_eq_ok.mp h
      have hanswer := Except.ok.inj h
      split at hanswer
      · exact nomatch hanswer
      next hfound =>
        rw [Except.error.injEq] at hanswer
        rintro rfl
        exact hfound (List.isEmpty_iff.mpr hanswer)
    | error issues =>
      simp only [hdecode] at h
      obtain ⟨cross, _, h⟩ := bind_eq_ok.mp h
      have hanswer := Except.error.inj (Except.ok.inj h)
      rintro rfl
      have hissues : issues = [] := by
        rw [List.append_eq_nil_iff, List.append_eq_nil_iff, List.map_eq_nil_iff] at hanswer
        exact hanswer.1.1
      exact Preset.explains (.obj fields) (hdecode.trans (congrArg Except.error hissues))
  | _ =>
    have hanswer := Except.error.inj (Except.ok.inj h)
    simp [← hanswer]

end Audit

end GraphWorkbench
