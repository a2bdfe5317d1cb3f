import GraphWorkbench.Proofs.Preset.Audit
import GraphWorkbench.Proofs.Preset.Migrating
import GraphWorkbench.Proofs.Preset.Writing
/-!
What becomes of a preset that was accepted when it goes through everything again. It is accepted as
it is written, as the preset that it is; and it is migrated to itself when its version is the one in
use.
-/
namespace GraphWorkbench.Audit

open Outcome
open Migration (migrate)

variable {candidate : Json} {p : Preset}

/-- What was accepted is accepted again as it is written. -/
theorem validate_written (h : validate candidate = .ok (.ok p)) :
    validate p.toJson = .ok (.ok p) := by
  cases candidate with
  | obj fields =>
    obtain ⟨hread, hcross, hversion⟩ := validate_obj_eq_ok_iff.mp h
    have hreread : Preset.decode p.toJson = .ok p := Preset.rereads hread
    have hshown := Preset.shown_of_decode hread
    have hshown' := Preset.shown_of_decode hreread
    -- both searches come down to conditions on the preset alone
    have hwell := (crossFindings_eq_nil_iff hshown).mp hcross
    have hguard := (versionFindings_eq_nil_iff hshown).mp hversion
    exact validate_obj_eq_ok_iff.mpr ⟨hreread, (crossFindings_eq_nil_iff hshown').mpr hwell,
      (versionFindings_eq_nil_iff hshown').mpr hguard⟩
  | _ => exact absurd (Except.ok.inj h) (by simp)

/-- An accepted version that is not in use has a digit that the guard cannot see. -/
theorem later_digit_of_validate (h : validate candidate = .ok (.ok p))
    (hversion : p.version ≠ currentVersion) :
    ∃ c ∈ p.version.toList, Text.isLaterDigit c = true ∧ Text.isDigit c = false := by
  cases candidate with
  | obj fields =>
    obtain ⟨hread, _, hguard⟩ := validate_obj_eq_ok_iff.mp h
    have hshown := Preset.shown_of_decode hread
    exact ((versionFindings_eq_nil_iff hshown).mp hguard).resolve_left hversion
  | _ => exact absurd (Except.ok.inj h) (by simp)

theorem versionOf?_toJson (p : Preset) : Migration.versionOf? p.toJson = some p.version := by
  simp [Migration.versionOf?, Preset.toJson, Migration.memberOr, Entries.get?, Json.str?]

/-- There are no steps for a preset of the version in use. -/
theorem migrate_current (hvalid : validate p.toJson = .ok (.ok p))
    (hversion : p.version = currentVersion) : migrate p.toJson .null = .ok (.ok p) := by
  have hraw : Migration.migrateRaw p.toJson (.str p.version) (.str currentVersion) =
      .ok (.ok p.toJson) := by
    rw [hversion]
    rfl
  have hdeclared := versionOf?_toJson p
  obtain ⟨fields, hfields⟩ : ∃ fields, p.toJson = .obj fields := ⟨_, rfl⟩
  rw [hfields] at hvalid hraw hdeclared ⊢
  simp only [migrate, Json.isTruthy, Bool.false_eq_true, if_false, hdeclared, Option.map_some,
    hraw, ok_bind, hvalid, pure_eq_ok]

/-- No supported version has a digit that only the later tables have, so there are no steps from one
that has. -/
theorem migrate_later_digit
    (h : ∃ c ∈ p.version.toList, Text.isLaterDigit c = true ∧ Text.isDigit c = false) :
    migrate p.toJson .null = .ok (.error (.unsupported (.str p.version))) := by
  have hplain : (Migration.supported.all fun version =>
      version.toList.all fun c => Text.isDigit c || !Text.isLaterDigit c) = true := by
    decide +kernel
  have hother : ∀ version ∈ Migration.supported, p.version ≠ version := by
    rintro version hversion rfl
    obtain ⟨c, hc, hlater, hdigit⟩ := h
    have hseen := List.all_eq_true.mp (List.all_eq_true.mp hplain _ hversion) c hc
    rw [hdigit, hlater] at hseen
    exact Bool.noConfusion hseen
  have hsteps : Migration.stepsBetween (.str p.version) (.str currentVersion) =
      .error (.unsupported (.str p.version)) := by
    rw [Migration.stepsBetween_current, if_neg (hother _ (by decide)),
      if_neg (hother _ (by decide)), if_neg (hother _ (by decide)), if_neg (hother _ (by decide))]
  have hraw : Migration.migrateRaw p.toJson (.str p.version) (.str currentVersion) =
      .ok (.error (.unsupported (.str p.version))) := by
    rw [Migration.migrateRaw, hsteps]
  have hdeclared := versionOf?_toJson p
  obtain ⟨fields, hfields⟩ : ∃ fields, p.toJson = .obj fields := ⟨_, rfl⟩
  rw [hfields] at hraw hdeclared ⊢
  simp only [migrate, Json.isTruthy, Bool.false_eq_true, if_false, hdeclared, Option.map_some,
    hraw, ok_bind, pure_eq_ok]

/-- A preset that was accepted is accepted as it is written, and so it is when it is validated
itself. It is migrated to itself if its version is the one in use; if it is not, the version is
written with a digit that only the later tables have, and there is no way from it. -/
theorem validate_fixpoint (h : validate candidate = .ok (.ok p)) :
    validate p.toJson = .ok (.ok p) ∧ revalidate p = .ok (.ok p) ∧
      (p.version = currentVersion → migrate p.toJson .null = .ok (.ok p)) ∧
      (p.version ≠ currentVersion →
        (∃ c ∈ p.version.toList, Text.isLaterDigit c = true ∧ Text.isDigit c = false) ∧
        migrate p.toJson .null = .ok (.error (.unsupported (.str p.version)))) := by
  have hwritten := validate_written h
  refine ⟨hwritten, hwritten, migrate_current hwritten, fun hversion => ?_⟩
  have hdigit := later_digit_of_validate h hversion
  exact ⟨hdigit, migrate_later_digit hdigit⟩

/-- Names of both kinds, sections left out, options that are null, and scalars in other forms. -/
theorem validate_fixpoint_lenient :
    let candidate : Json := .obj [("id", .str "a"), ("name", .str "A"), ("version", .str "2.0.0"),
      ("author", .null),
      ("node_types", .arr [.obj [("id", .str "n"), ("name", .str "N"),
        ("style", .obj [("color", .str "#000000"), ("border_color", .null)]),
        ("properties", .arr [.obj [("id", .str "p"), ("name", .str "P"), ("type", .str "enum"),
          ("required", .str "yes"), ("options", .arr [.str "x"])]])]]),
      ("relationships", .arr [.obj [("id", .str "r"), ("name", .str "R"),
        ("source_types", .arr [.str "*"]), ("targetTypes", .arr [.str "n"]),
        ("style", .obj [("stroke_width", .str "3")])]]),
      ("behavior", .obj [("grid_size", .str "15"), ("snapToGrid", .int 1)]),
      ("ontology_mappings", .arr [.obj [("id", .str "m"), ("source_type", .str "n"),
        ("priority", .bool true),
        ("rule", .obj [("kind", .str "by-type"), ("derived_relationship", .str "r")])]])]
    let p : Preset :=
      { id := "a", name := "A", version := "2.0.0",
        nodeTypes := [
          { id := "n", name := "N", style := { color := "#000000" },
            properties := [
              { id := "p", name := "P", kind := .choice, required := true
                options := some ["x"] }] }],
        relationships := [
          { id := "r", name := "R", sourceTypes := ["*"], targetTypes := ["n"],
            style := { strokeWidth := 3 } }],
        behavior := { gridSize := 15, snapToGrid := true },
        mappings := [
          { id := "m", sourceType := some "n", priority := 1,
            rule := { kind := .byType, derived := some "r" } }] }
    validate candidate = .ok (.ok p) ∧ validate p.toJson = .ok (.ok p) ∧
      migrate p.toJson .null = .ok (.ok p) := by
  intro candidate p
  have haccepted : validate candidate = .ok (.ok p) := by decide +kernel
  obtain ⟨hwritten, _, hmigrate, _⟩ := validate_fixpoint haccepted
  exact ⟨haccepted, hwritten, hmigrate rfl⟩

/-- A preset whose version is written in the digits of a later script is accepted and cannot be
migrated. -/
theorem migrate_later_digits :
    let version := "𑽐.𑽐.𑽐"
    let candidate : Json := .obj [("id", .str "a"), ("name", .str "A"), ("version", .str version),
      ("nodeTypes", .arr [.obj [("id", .str "n"), ("name", .str "N"),
        ("style", .obj [("color", .str "#000000")])]])]
    let p : Preset :=
      { id := "a", name := "A", version := version,
        nodeTypes := [{ id := "n", name := "N", style := { color := "#000000" } }] }
    validate candidate = .ok (.ok p) ∧
      migrate p.toJson .null = .ok (.error (.unsupported (.str version))) := by
  intro version candidate p
  have haccepted : validate candidate = .ok (.ok p) := by decide +kernel
  exact ⟨haccepted, migrate_later_digit (later_digit_of_validate haccepted (by decide))⟩

end GraphWorkbench.Audit
