import GraphWorkbench.Preset.Load
import GraphWorkbench.Proofs.Preset.Migrating
import GraphWorkbench.Proofs.Preset.Searching
/-!
When judgement is passed on a preset. Validation and loading end with a preset or with what is wrong
with the candidate, except where a value that is looked up among words is a list or an object, where
a pattern is too large or has flags that exclude each other, and where a source holds a number of
too many digits.
-/
namespace GraphWorkbench

open Outcome
open Schema (Fields)

namespace Migration

/-- A preset of a version on which judgement can be passed: it can be brought to the current format,
and what it becomes can be searched. -/
@[mk_iff]
structure Judgeable (fields : Fields) (version : String) : Prop where
  convertible : version = "0.9.0" ∨ version = "1.0.0" → Convertible fields
  searchable : ∀ migrated,
    migrateRaw (.obj fields) (.str version) (.str currentVersion) = .ok (.ok (.obj migrated)) →
      Audit.Searchable migrated

variable {fields : Fields} {version : String} {raw : Json}

theorem exists_obj_of_migrateRaw {source target v : Json}
    (h : migrateRaw (.obj fields) source target = .ok (.ok v)) : ∃ migrated, v = .obj migrated := by
  unfold migrateRaw at h
  split at h
  · exact absurd h (by simp)
  · obtain ⟨migrated, hrun, h⟩ := bind_eq_ok.mp h
    obtain rfl := Except.ok.inj (Except.ok.inj h)
    exact exists_obj_of_runSteps hrun

theorem answers_validate_obj :
    Answers (Audit.validate (.obj fields)) ↔ Audit.Searchable fields := by
  rw [Audit.answers_validate]
  simp only [Json.obj.injEq, forall_eq']

theorem answers_migrate : Answers (migrate raw .null) ↔
    ∀ fields version, raw = .obj fields → versionOf? raw = some version →
      Judgeable fields version := by
  cases raw with
  | obj fields =>
    unfold migrate
    simp only [Json.isTruthy, Bool.false_eq_true, if_false, Json.obj.injEq]
    cases versionOf? (.obj fields) with
    | none => simp [Answers.ok]
    | some version =>
      simp only [Option.map_some, Option.some.injEq]
      have hjudgeable : (∀ fields' version', fields = fields' → version = version' →
          Judgeable fields' version') ↔ Judgeable fields version := by
        constructor
        · intro h
          exact h fields version rfl rfl
        · rintro h _ _ rfl rfl
          exact h
      rw [hjudgeable, judgeable_iff, ← answers_migrateRaw]
      -- the migration has an answer of its own, on which it depends what remains to be searched
      refine Answers.bind_iff fun answer hanswer => ?_
      rw [hanswer]
      cases answer with
      | error e => simp [pure_eq_ok, Answers.ok]
      | ok v =>
        obtain ⟨migrated, rfl⟩ := exists_obj_of_migrateRaw hanswer
        simp only [Except.ok.injEq, Json.obj.injEq, forall_eq']
        rw [← answers_validate_obj]
        refine Answers.bind_of_next fun judged => ?_
        cases judged <;> exact .ok _
  | _ => simp [migrate, Answers.ok]

/-- The steps are refused for a version only. -/
theorem migrateRaw_ne_invalid {source target : Json} {violations : List Violation} :
    migrateRaw raw source target ≠ .ok (.error (.invalid violations)) := by
  intro h
  unfold migrateRaw at h
  cases hsteps : stepsBetween source target with
  | error e =>
    simp only [hsteps] at h
    obtain rfl := Except.error.inj (Except.ok.inj h)
    unfold stepsBetween at hsteps
    split at hsteps
    · exact absurd hsteps (by simp)
    · split at hsteps
      · exact absurd hsteps (by simp)
      · split at hsteps <;> exact absurd hsteps (by simp)
  | ok steps =>
    simp only [hsteps] at h
    obtain ⟨v, _, h⟩ := bind_eq_ok.mp h
    exact absurd h (by simp [pure_eq_ok])

theorem ne_nil_of_migrate {declared : Json} {violations : List Violation}
    (h : migrate raw declared = .ok (.error (.invalid violations))) : violations ≠ [] := by
  cases raw with
  | obj fields =>
    unfold migrate at h
    simp only at h
    split at h
    · exact absurd h (by simp)
    · obtain ⟨answer, hanswer, h⟩ := bind_eq_ok.mp h
      cases answer with
      | error e =>
        obtain rfl : e = .invalid violations := Except.error.inj (Except.ok.inj h)
        exact absurd hanswer migrateRaw_ne_invalid
      | ok migrated =>
        obtain ⟨judged, hjudged, h⟩ := bind_eq_ok.mp h
        cases judged with
        | ok p => exact absurd h (by simp [pure_eq_ok])
        | error found =>
          obtain rfl : found = violations := by
            simpa [pure_eq_ok] using h
          exact Audit.ne_nil_of_validate hjudged
  | _ => exact absurd h (by simp [migrate])

end Migration

namespace Library

/-- A source on which judgement can be passed: no number in it is too long, and a preset with a
version can be judged. -/
def Judgeable (source : Json.Source) : Prop :=
  match source.read with
  | .error e => e.isLongInteger = false
  | .ok raw => ∀ fields version, raw = .obj fields → Migration.versionOf? raw = some version →
      Migration.Judgeable fields version

/-- An answer that tells what is wrong, if anything is. -/
def Told (answer : Except (List Violation) Preset) : Prop :=
  ∀ violations, answer = .error violations → violations ≠ []

variable {source : Json.Source} {violations : List Violation}

theorem answers_load : Answers (load source) ↔ Judgeable source := by
  unfold load Judgeable
  cases source.read with
  | error e =>
    cases hlong : e.isLongInteger with
    | true => simp [hlong, Answers, throw, throwThe, MonadExceptOf.throw]
    | false => simp [hlong, Answers, pure_eq_ok]
  | ok raw =>
    simp only
    rw [← Migration.answers_migrate]
    refine Answers.bind_of_next fun answer => ?_
    split <;> exact .ok _

theorem ne_nil_of_load (h : load source = .ok (.error violations)) : violations ≠ [] := by
  unfold load at h
  split at h
  · split at h
    · exact absurd h (by simp)
    · obtain rfl := Except.error.inj (Except.ok.inj h)
      simp
  · obtain ⟨answer, hanswer, h⟩ := bind_eq_ok.mp h
    split at h
    · exact absurd h (by simp [pure_eq_ok])
    · obtain rfl := Except.error.inj (Except.ok.inj h)
      exact Migration.ne_nil_of_migrate hanswer
    · obtain rfl := Except.error.inj (Except.ok.inj h)
      simp

/-- Judgement on a candidate is passed exactly when what is looked up in it can be looked up;
judgement on a source, exactly when moreover its properties can be brought to their present shape
and no number is too long. A judgement is a preset or at least one thing that is wrong. -/
theorem judged_iff_judgeable (candidate : Json) (source : Json.Source) :
    (Gives (Audit.validate candidate) Told ↔
      ∀ fields, candidate = .obj fields → Audit.Searchable fields) ∧
    (Gives (load source) Told ↔ Judgeable source) := by
  constructor
  · rw [← Audit.answers_validate]
    constructor
    · rintro ⟨answer, hanswer, _⟩
      exact ⟨answer, hanswer⟩
    · rintro ⟨answer, hanswer⟩
      refine ⟨answer, hanswer, ?_⟩
      rintro violations rfl
      exact Audit.ne_nil_of_validate hanswer
  · rw [← answers_load]
    constructor
    · rintro ⟨answer, hanswer, _⟩
      exact ⟨answer, hanswer⟩
    · rintro ⟨answer, hanswer⟩
      refine ⟨answer, hanswer, ?_⟩
      rintro violations rfl
      exact ne_nil_of_load hanswer

/-- The kind of a property is a list, and no judgement is passed. -/
theorem validate_kind_list :
    Audit.validate (.obj [("id", .str "a"), ("name", .str "A"), ("version", .str "2.0.0"),
      ("nodeTypes", .arr [.obj [("id", .str "n"), ("name", .str "N"),
        ("style", .obj [("color", .str "#000000")]),
        ("properties", .arr [.obj [("id", .str "p"), ("name", .str "P"), ("type", .arr [])]])]])]) =
      .error .wrongKind :=
  rfl

end Library

end GraphWorkbench
