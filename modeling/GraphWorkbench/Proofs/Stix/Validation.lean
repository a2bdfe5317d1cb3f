import GraphWorkbench.Proofs.Stix.Account
import GraphWorkbench.Proofs.Stix.Renumbering
/-!
Validation kind by kind. The id of a valid object starts with its kind, so that an object can repeat
the id of no other than one of its kind. What becomes of the entries of some kinds is therefore the
same whether or not the other entries are there.
-/
namespace GraphWorkbench.Stix

variable {k : Kind} {v w : ValidObject} {i j : Nat} {entry entry' : Json} {seen seen' : List String}
  {entries : List (Json × Nat)}

/-! The kind of an entry, and of what becomes of it. -/

theorem Kind.ofWord?_word (k : Kind) : ofWord? k.word = some k := by
  cases k <;> rfl

/-- The kind that an entry has by its type. -/
def entryKind? : Json → Option Kind
  | .obj record => match Entries.get? "type" record with
    | some (.str type) => Kind.ofWord? type
    | _ => none
  | _ => none

/-- The kind of the entry that an outcome is about. -/
def Outcome.kind? : Outcome → Option Kind
  | .valid v => some v.kind
  | .issue x => x.type.bind Kind.ofWord?
  | .unknown _ => none

section Kinds

theorem kind_of_checkObject {record : List (String × Json)} (h : checkObject i k record = .ok v) :
    v.kind = k ∧ startsOtherwise v.id k.word = false := by
  obtain ⟨_, _, _, hid⟩ := checkObject_eq_ok h
  unfold checkObject at h
  extract_lets name read at h
  rw [hid] at h
  simp only at h
  split at h
  · rw [Outcome.throw_bind] at h
    exact nomatch h
  next hstart =>
    refine ⟨?_, by simpa using hstart⟩
    simp only [read] at h
    split at h
    · exact nomatch h
    · split at h
      · rw [Outcome.throw_bind] at h
        exact nomatch h
      · rw [← Except.ok.inj h]

theorem kind?_checkEntry (i : Nat) (entry : Json) : (checkEntry i entry).kind? = entryKind? entry := by
  cases entry with
  | obj record =>
    unfold checkEntry entryKind?
    simp only
    cases Entries.get? "type" record with
    | none => rfl
    | some value =>
      cases value with
      | str type =>
        simp only
        split
        next hempty =>
          obtain rfl : type = "" := by simpa using hempty
          rfl
        next =>
          cases hkind : Kind.ofWord? type with
          | none => rfl
          | some kind =>
            simp only
            split
            next object hobject => exact congrArg some (kind_of_checkObject hobject).1
            next => exact hkind
      | _ => rfl
  | _ => rfl

theorem kind?_checkAfter (seen : List String) (i : Nat) (entry : Json) :
    (checkAfter seen i entry).kind? = entryKind? entry := by
  rw [← kind?_checkEntry i]
  unfold checkAfter
  cases checkEntry i entry with
  | valid v =>
    simp only
    split
    · exact Kind.ofWord?_word v.kind
    · rfl
  | _ => rfl

theorem isSome_beforeMark?_of_isReferenceRest {cs : List Char}
    (h : Text.isReferenceRest cs = true) : (beforeMark? cs).isSome = true := by
  induction cs with
  | nil => exact nomatch h
  | cons c rest ih =>
    cases rest with
    | nil => simp [Text.isReferenceRest] at h
    | cons c' tail =>
      rw [beforeMark?]
      split
      next => rfl
      next hnot =>
        -- with no mark at its start, the text has it further on
        have hrest : Text.isReferenceRest (c' :: tail) = true := by
          by_contra hnone
          rw [Bool.not_eq_true] at hnone
          rw [Text.isReferenceRest.eq_def] at h
          simp only [hnone, Bool.and_false, Bool.or_false, Bool.and_eq_true, beq_iff_eq] at h
          obtain ⟨hc, htail⟩ := h
          split at htail
          next heq => exact hnot ⟨hc, (List.cons.inj heq).1⟩
          next => exact absurd htail Bool.false_ne_true
        rw [Option.isSome_map]
        exact ih hrest

theorem isSome_beforeMark?_of_isReferenceForm {cs : List Char}
    (h : Text.isReferenceForm cs = true) : (beforeMark? cs).isSome = true := by
  cases cs with
  | nil => exact nomatch h
  | cons c rest =>
    rw [Text.isReferenceForm, Bool.and_eq_true] at h
    have hrest := isSome_beforeMark?_of_isReferenceRest h.2
    cases rest with
    | nil => exact nomatch hrest
    | cons c' tail =>
      rw [beforeMark?]
      split
      · rfl
      · rwa [Option.isSome_map]

theorem isReferenceForm_of_read (h : v.Read) (given : idOf? v.raw = some v.id) :
    Text.isReferenceForm v.id.toList = true := by
  let id : Field := .must "id" .str reference
  have hmem : id ∈ commonFields v.kind ++ ownFields v.kind := by simp [commonFields, id]
  obtain ⟨_, he⟩ := h.exists_decode hmem
  obtain ⟨value, a, hget, hread⟩ := exists_value_of_must he
  obtain ⟨rfl, hfits⟩ := Schema.eq_str_of_formed hread
  rw [idOf?, hget] at given
  obtain rfl : a = v.id := Option.some.inj given
  exact hfits

theorem startsOtherwise_id (h : checkEntry i entry = .valid v) :
    startsOtherwise v.id v.kind.word = false := by
  unfold checkEntry at h
  split at h
  next record =>
    simp only at h
    split at h
    · split at h
      · exact Outcome.noConfusion h
      · split at h
        · exact Outcome.noConfusion h
        · split at h
          next object hobject =>
            obtain rfl := Outcome.valid.inj h
            obtain ⟨rfl, hstart⟩ := kind_of_checkObject hobject
            exact hstart
          next => exact Outcome.noConfusion h
    · exact Outcome.noConfusion h
  next => exact Outcome.noConfusion h

theorem beforeMark?_id (h : checkEntry i entry = .valid v) :
    beforeMark? v.id.toList = some v.kind.word.toList := by
  have hconcerns := concerns_checkEntry i entry
  obtain ⟨_, hread, _, hid⟩ := hconcerns.valid v h
  have hstart := startsOtherwise_id h
  have hform := isReferenceForm_of_read hread hid
  obtain ⟨start, hmark⟩ := Option.isSome_iff_exists.mp (isSome_beforeMark?_of_isReferenceForm hform)
  rw [startsOtherwise, hmark] at hstart
  rw [hmark]
  simpa using hstart

/-- Valid objects with the same id are of the same kind. -/
theorem kind_eq_of_id_eq (h : checkEntry i entry = .valid v) (h' : checkEntry j entry' = .valid w)
    (same : v.id = w.id) : v.kind = w.kind := by
  have hmark := beforeMark?_id h
  rw [same, beforeMark?_id h', Option.some.injEq, String.toList_inj] at hmark
  have hkind := Kind.ofWord?_word v.kind
  rw [← hmark, Kind.ofWord?_word] at hkind
  exact (Option.some.inj hkind).symm

end Kinds

/-! What becomes of some entries among others. -/

section Entries

theorem Outcome.mem_joins {x : Outcome} {id : String} :
    id ∈ x.joins seen ↔ (∃ v, x = .valid v ∧ v.id = id) ∨ id ∈ seen := by
  cases x with
  | valid v => simp [joins, eq_comm]
  | _ => simp [joins]

theorem checkAfter_congr
    (agree : ∀ v, checkEntry i entry = .valid v → (v.id ∈ seen ↔ v.id ∈ seen')) :
    checkAfter seen i entry = checkAfter seen' i entry := by
  unfold checkAfter
  cases hentry : checkEntry i entry with
  | valid v =>
    have hcontains : seen.contains v.id = seen'.contains v.id := by
      rw [Bool.eq_iff_iff, List.contains_iff_mem, List.contains_iff_mem]
      exact agree v hentry
    simp only [hcontains]
  | _ => rfl

theorem checkAfter_eq_valid_iff : checkAfter seen i entry = .valid v ↔
    checkEntry i entry = .valid v ∧ v.id ∉ seen := by
  unfold checkAfter
  cases checkEntry i entry with
  | valid u =>
    simp only [List.contains_iff_mem, Outcome.valid.injEq]
    split
    next hseen => exact iff_of_false Outcome.noConfusion fun h => h.2 (h.1 ▸ hseen)
    next hunseen =>
      refine ⟨fun h => ?_, fun h => congrArg Outcome.valid h.1⟩
      obtain rfl := Outcome.valid.inj h
      exact ⟨rfl, hunseen⟩
  | _ => exact iff_of_false Outcome.noConfusion fun h => Outcome.noConfusion h.1

theorem checkEntry_of_checkAfter (h : checkAfter seen i entry = .valid v) :
    checkEntry i entry = .valid v := (checkAfter_eq_valid_iff.mp h).1

/-- Where its id has not been seen, an entry comes to the same as by itself. -/
theorem checkAfter_eq_checkEntry (unseen : ∀ v, checkEntry i entry = .valid v → v.id ∉ seen) :
    checkAfter seen i entry = checkEntry i entry := by
  cases hentry : checkEntry i entry with
  | valid v => exact checkAfter_eq_valid_iff.mpr ⟨hentry, unseen v hentry⟩
  | _ =>
    unfold checkAfter
    rw [hentry]

/-- Of the outcomes of all entries, those of the entries of some kinds are what becomes of these
entries alone, so far as the ids seen before agree on them. -/
theorem filter_outcomesAlong (ofKind : Option Kind → Bool)
    (agree : ∀ e ∈ entries, ofKind (entryKind? e.1) = true → ∀ v, checkEntry e.2 e.1 = .valid v →
      (v.id ∈ seen ↔ v.id ∈ seen')) :
    (outcomesAlong seen entries).filter (fun x => ofKind x.kind?) =
      outcomesAlong seen' (entries.filter fun e => ofKind (entryKind? e.1)) := by
  -- along the entries; no id that comes in between is one of an entry of these kinds
  induction entries generalizing seen seen' with
  | nil => rfl
  | cons e rest ih =>
    obtain ⟨entry, i⟩ := e
    obtain ⟨hentry, hrest⟩ := List.forall_mem_cons.mp agree
    rw [outcomesAlong]
    by_cases hkind : ofKind (entryKind? entry) = true
    · have hsame : checkAfter seen i entry = checkAfter seen' i entry :=
        checkAfter_congr (hentry hkind)
      rw [List.filter_cons_of_pos (by rwa [kind?_checkAfter]), List.filter_cons_of_pos (by exact hkind),
        outcomesAlong, hsame]
      refine congrArg _ (ih fun e he hof v hv => ?_)
      rw [Outcome.mem_joins, Outcome.mem_joins, hrest e he hof v hv]
    · rw [List.filter_cons_of_neg (by rwa [kind?_checkAfter]), List.filter_cons_of_neg (by exact hkind)]
      refine ih fun e he hof v hv => ?_
      rw [Outcome.mem_joins, ← hrest e he hof v hv, or_iff_right]
      rintro ⟨w, hw, hid⟩
      have hw := checkEntry_of_checkAfter hw
      have hv' := kind?_checkEntry e.2 e.1
      have hw' := kind?_checkEntry i entry
      rw [hv] at hv'
      rw [hw] at hw'
      rw [← hv', Outcome.kind?, ← kind_eq_of_id_eq hw hv hid] at hof
      exact hkind (hw' ▸ hof)

/-- Without entries that repeat an id seen before, it does not matter what was seen. -/
theorem outcomesAlong_congr
    (agree : ∀ e ∈ entries, ∀ v, checkEntry e.2 e.1 = .valid v → (v.id ∈ seen ↔ v.id ∈ seen')) :
    outcomesAlong seen entries = outcomesAlong seen' entries := by
  have hall := filter_outcomesAlong (fun _ => true) fun e he _ => agree e he
  simpa using hall

theorem exists_entry_of_mem {x : Outcome} (h : x ∈ outcomesAlong seen entries) :
    ∃ e ∈ entries, ∃ seen, x = checkAfter seen e.2 e.1 := by
  induction entries generalizing seen with
  | nil => exact nomatch h
  | cons e rest ih =>
    rcases List.mem_cons.mp h with rfl | hrest
    · exact ⟨e, List.mem_cons_self, seen, rfl⟩
    · obtain ⟨e', he', hx⟩ := ih hrest
      exact ⟨e', List.mem_cons_of_mem _ he', hx⟩

/-- A valid object is what becomes of the entry at its place. -/
theorem entry_of_mem_valid {b : Bundle} (h : v ∈ (validate b).valid) :
    b.objects[v.index]? = some (.obj v.raw) ∧ checkEntry v.index (.obj v.raw) = .valid v := by
  have houtcome := mem_valid_iff.mp h
  rw [outcomes, outcomesFrom_eq_along] at houtcome
  obtain ⟨⟨entry, i⟩, hmem, seen, hafter⟩ := exists_entry_of_mem houtcome
  have hentry : checkEntry i entry = .valid v := checkEntry_of_checkAfter hafter.symm
  have hconcerns := concerns_checkEntry i entry
  rw [hentry] at hconcerns
  obtain rfl : v.index = i := hconcerns.index
  obtain ⟨rfl, _⟩ := hconcerns.valid v rfl
  exact ⟨List.mem_zipIdx_iff_getElem?.mp hmem, hentry⟩

theorem mem_foldl_joins {xs : List Outcome} {id : String} :
    id ∈ xs.foldl Outcome.joins seen ↔ (∃ v, .valid v ∈ xs ∧ v.id = id) ∨ id ∈ seen := by
  induction xs generalizing seen with
  | nil => simp
  | cons x rest ih =>
    rw [List.foldl_cons, ih, Outcome.mem_joins, ← or_assoc]
    simp only [List.mem_cons, or_and_right, exists_or, eq_comm (a := x)]
    exact or_congr_left or_comm

theorem outcomesAlong_append (others : List (Json × Nat)) :
    outcomesAlong seen (entries ++ others) = outcomesAlong seen entries ++
      outcomesAlong ((outcomesAlong seen entries).foldl Outcome.joins seen) others := by
  induction entries generalizing seen with
  | nil => rfl
  | cons e rest ih => simp only [List.cons_append, outcomesAlong, ih, List.foldl_cons]

end Entries

/-! The report of a validation, by its outcomes. -/

namespace Outcome

def object? : Outcome → Option ValidObject
  | .valid v => some v
  | _ => none

def issue? : Outcome → Option Issue
  | .issue x => some x
  | _ => none

def unknown? : Outcome → Option UnknownType
  | .unknown u => some u
  | _ => none

def report (xs : List Outcome) : ValidationReport :=
  { valid := xs.filterMap object?, issues := xs.filterMap issue?, unknown := xs.filterMap unknown? }

end Outcome

section Reports

variable (f : Nat → Nat) (xs ys : List Outcome)

theorem validate_eq_report (b : Bundle) : validate b = Outcome.report (outcomes b) := by
  unfold validate Outcome.report
  simp only [ValidationReport.mk.injEq]
  refine ⟨?_, ?_, ?_⟩ <;> exact List.filterMap_congr fun x _ => by cases x <;> rfl

theorem Outcome.report_append : report (xs ++ ys) =
    { valid := (report xs).valid ++ (report ys).valid
      issues := (report xs).issues ++ (report ys).issues
      unknown := (report xs).unknown ++ (report ys).unknown } := by
  simp only [report, List.filterMap_append]

theorem Outcome.report_moved : report (xs.map (moved f)) =
    { valid := (report xs).valid.map (ValidObject.moved f)
      issues := (report xs).issues.map (Issue.moved f)
      unknown := (report xs).unknown.map (UnknownType.moved f) } := by
  simp only [report, List.filterMap_map, List.map_filterMap, ValidationReport.mk.injEq]
  refine ⟨?_, ?_, ?_⟩ <;> exact List.filterMap_congr fun x _ => by cases x <;> rfl

end Reports

/-! Bundles one after the other. -/

/-- The id that an entry gives. -/
def entryId? : Json → Option String
  | .obj record => idOf? record
  | _ => none

def Bundle.ids (b : Bundle) : List String := b.objects.filterMap entryId?

section Joining

theorem entryId?_of_valid (h : checkEntry i entry = .valid v) : entryId? entry = some v.id := by
  obtain ⟨rfl, _, _, hid⟩ := (concerns_checkEntry i entry).valid v h
  exact hid

/-- The outcomes of two bundles that share no id are those of the bundle that joins them. -/
theorem outcomes_joined {a b joined : Bundle} (objects : joined.objects = a.objects ++ b.objects)
    (apart : ∀ id ∈ a.ids, id ∉ b.ids) :
    outcomes joined =
      outcomes a ++ (outcomes b).map (Outcome.moved (a.objects.length + ·)) := by
  have hplaces : b.objects.zipIdx a.objects.length =
      b.objects.zipIdx.map (Prod.map id (a.objects.length + ·)) := by
    rw [List.zipIdx_eq_map_add]
    rfl
  have hgiven : ∀ {objects : List Json} {entry : Json} {i : Nat} {v : ValidObject},
      entry ∈ objects → checkEntry i entry = .valid v → v.id ∈ objects.filterMap entryId? :=
    fun hentry hv => List.mem_filterMap.mpr ⟨_, hentry, entryId?_of_valid hv⟩
  unfold outcomes
  simp only [outcomesFrom_eq_along]
  rw [objects, List.zipIdx_append, outcomesAlong_append, Nat.zero_add, hplaces,
    ← outcomesAlong_moved]
  congr 1
  -- no id of the second bundle was seen in the first one
  refine outcomesAlong_congr fun e he v hv => ?_
  obtain ⟨e', he', rfl⟩ := List.mem_map.mp he
  have hid : v.id ∈ b.ids := hgiven (List.fst_mem_of_mem_zipIdx he') hv
  simp only [mem_foldl_joins, List.not_mem_nil, or_false, iff_false]
  rintro ⟨w, hw, hsame⟩
  obtain ⟨e, he, seen, hafter⟩ := exists_entry_of_mem hw
  have hseen : w.id ∈ a.ids :=
    hgiven (List.fst_mem_of_mem_zipIdx he) (checkEntry_of_checkAfter hafter.symm)
  exact apart w.id hseen (hsame ▸ hid)

theorem validate_joined {a b joined : Bundle} (objects : joined.objects = a.objects ++ b.objects)
    (apart : ∀ id ∈ a.ids, id ∉ b.ids) :
    let move := (a.objects.length + ·)
    validate joined =
      { valid := (validate a).valid ++ (validate b).valid.map (ValidObject.moved move)
        issues := (validate a).issues ++ (validate b).issues.map (Issue.moved move)
        unknown := (validate a).unknown ++ (validate b).unknown.map (UnknownType.moved move) } := by
  simp only [validate_eq_report, outcomes_joined objects apart, Outcome.report_append,
    Outcome.report_moved]

end Joining

/-- A bundle of nothing but its objects. -/
def bundleOf (objects : List Json) : Json := .obj [("objects", .arr objects)]

theorem read_bundleOf (objects : List Json) :
    Bundle.read (.value (bundleOf objects)) = .ok (.ok { objects }) := rfl

end GraphWorkbench.Stix
