import GraphWorkbench.Proofs.Stix.References
/-!
How validation sorts the entries of a bundle. Each entry has its place in one of the three lists of
the report, and a list keeps the order of the bundle. An entry that is valid by itself is refused
only for an earlier one that counts under the same id. Outcomes may be taken one at a time, in as many
iterations as one likes: each has its own ids seen, so that they all come to the same.
-/
namespace GraphWorkbench.Stix

variable {b : Bundle} {i j : Nat} {entry : Json} {seen : List String} {x : Outcome} {v : ValidObject}
  {entries : List (Json × Nat)}

section Places

theorem perm_index_report (xs : List Outcome) :
    ((xs.filterMap Outcome.object?).map ValidObject.index ++
      (xs.filterMap Outcome.issue?).map Issue.index ++
      (xs.filterMap Outcome.unknown?).map UnknownType.index).Perm (xs.map Outcome.index) := by
  induction xs with
  | nil => exact .nil
  | cons x rest ih =>
    cases x with
    | valid v => exact ih.cons v.index
    | issue x =>
      -- its place moves in front of those of the valid objects
      refine .trans ?_ (ih.cons x.index)
      exact List.perm_middle.append_right _
    | unknown u =>
      refine .trans ?_ (ih.cons u.index)
      exact List.perm_middle

/-- The places of those outcomes that are picked come in the order of the places. -/
theorem index_filterMap_sublist {α : Type} {pick : Outcome → Option α} {place : α → Nat}
    (same : ∀ x a, pick x = some a → place a = x.index) (xs : List Outcome) :
    ((xs.filterMap pick).map place).Sublist (xs.map Outcome.index) := by
  induction xs with
  | nil => exact .slnil
  | cons x rest ih =>
    cases hpick : pick x with
    | none =>
      rw [List.filterMap_cons_none hpick]
      exact ih.cons _
    | some a =>
      rw [List.filterMap_cons_some hpick, List.map_cons, List.map_cons, same x a hpick]
      exact ih.cons_cons _

theorem map_index_outcomes (b : Bundle) :
    (outcomes b).map Outcome.index = List.range b.objects.length := by
  rw [outcomes, map_index_outcomesFrom, List.range_eq_range']

theorem pairwise_index_filterMap {α : Type} {pick : Outcome → Option α} {place : α → Nat}
    (same : ∀ x a, pick x = some a → place a = x.index) (b : Bundle) :
    (((outcomes b).filterMap pick).map place).Pairwise (· < ·) := by
  refine List.Pairwise.sublist (index_filterMap_sublist same _) ?_
  rw [map_index_outcomes]
  exact List.pairwise_lt_range

/-- Each list of a report is in the order of the bundle. -/
theorem pairwise_index_report (b : Bundle) :
    ((validate b).valid.map ValidObject.index).Pairwise (· < ·) ∧
      ((validate b).issues.map Issue.index).Pairwise (· < ·) ∧
      ((validate b).unknown.map UnknownType.index).Pairwise (· < ·) := by
  rw [validate_eq_report]
  refine ⟨pairwise_index_filterMap (fun x a h => ?_) b, pairwise_index_filterMap (fun x a h => ?_) b,
    pairwise_index_filterMap (fun x a h => ?_) b⟩
  · cases x <;> cases h
    rfl
  · cases x <;> cases h
    rfl
  · cases x <;> cases h
    rfl

theorem index_of_getElem? (h : (outcomes b)[i]? = some x) : x.index = i := by
  have hplace : ((outcomes b).map Outcome.index)[i]? = some x.index := by
    rw [List.getElem?_map, h]
    rfl
  rw [map_index_outcomes, List.getElem?_range] at hplace
  · exact (Option.some.inj hplace).symm
  · rw [← length_eq_objects]
    exact (List.getElem?_eq_some_iff.mp h).1

theorem getElem?_index (h : x ∈ outcomes b) : (outcomes b)[x.index]? = some x := by
  obtain ⟨j, hj⟩ := List.getElem?_of_mem h
  rwa [index_of_getElem? hj]

end Places

section Stream

theorem getElem?_outcomesAlong (n : Nat) : (outcomesAlong seen entries)[n]? =
    entries[n]?.map fun e =>
      checkAfter (((outcomesAlong seen entries).take n).foldl Outcome.joins seen) e.2 e.1 := by
  induction entries generalizing seen n with
  | nil => rfl
  | cons e rest ih =>
    cases n with
    | zero => rfl
    | succ n => exact ih n

/-- An outcome is that of its entry after the ids of the valid objects before it. -/
theorem getElem?_outcomes (b : Bundle) (i : Nat) : (outcomes b)[i]? =
    b.objects[i]?.map (checkAfter (((outcomes b).take i).foldl Outcome.joins []) i) := by
  have hall : outcomes b = outcomesAlong [] b.objects.zipIdx := outcomesFrom_eq_along [] 0 b.objects
  rw [hall, getElem?_outcomesAlong, List.getElem?_zipIdx, Option.map_map, Nat.zero_add]
  rfl

/-- An iteration of a stream: the ids that it has seen, and the outcomes that it has given. -/
structure Iteration where
  seen : List String
  given : List Outcome

/-- An iteration that has not begun yet. -/
def Iteration.unbegun : Iteration := { seen := [], given := [] }

/-- An iteration after one more outcome; none when there are no more entries. -/
def Iteration.next? (b : Bundle) (it : Iteration) : Option Iteration :=
  b.objects[it.given.length]?.map fun entry =>
    let outcome := checkAfter it.seen it.given.length entry
    { seen := outcome.joins it.seen, given := it.given ++ [outcome] }

/-- The iterations of a stream, which are begun and taken on in any order. -/
inductive Iterates (b : Bundle) : List Iteration → Prop
  | none : Iterates b []
  | begin {its : List Iteration} : Iterates b its → Iterates b (its ++ [.unbegun])
  | next {before after : List Iteration} {it it' : Iteration} :
    Iterates b (before ++ it :: after) → it.next? b = some it' → Iterates b (before ++ it' :: after)

/-- An iteration has come so far along the outcomes of the bundle, with the ids seen there. -/
structure Iteration.Follows (b : Bundle) (it : Iteration) : Prop where
  given : it.given <+: outcomes b
  seen : it.seen = it.given.foldl Outcome.joins []

theorem Iteration.next?_eq {it : Iteration} (h : it.Follows b) : it.next? b =
    (outcomes b)[it.given.length]?.map fun x => { seen := x.joins it.seen, given := it.given ++ [x] } := by
  rw [getElem?_outcomes, ← List.prefix_iff_eq_take.mp h.given, ← h.seen, Option.map_map]
  rfl

theorem Iteration.Follows.next {it it' : Iteration} (h : it.Follows b)
    (hnext : it.next? b = some it') : it'.Follows b := by
  rw [Iteration.next?_eq h, Option.map_eq_some_iff] at hnext
  obtain ⟨x, hx, rfl⟩ := hnext
  refine ⟨?_, ?_⟩
  · -- the next outcome is the first of those that it has not given yet
    obtain ⟨rest, hrest⟩ := h.given
    rw [← hrest, List.getElem?_append_right (Nat.le_refl _), Nat.sub_self] at hx
    obtain ⟨rest, rfl⟩ : ∃ tail, rest = x :: tail := List.head?_eq_some_iff.mp
      (List.head?_eq_getElem? ▸ hx)
    exact ⟨rest, by rw [List.append_assoc]; exact hrest⟩
  · rw [List.foldl_append, ← h.seen]
    rfl

theorem Iterates.follows {its : List Iteration} (h : Iterates b its) : ∀ it ∈ its, it.Follows b := by
  induction h with
  | none => exact nofun
  | begin _ ih =>
    intro it hit
    rcases List.mem_append.mp hit with hold | hnew
    · exact ih it hold
    · obtain rfl := List.mem_singleton.mp hnew
      exact ⟨List.nil_prefix, rfl⟩
  | next _ hnext ih =>
    intro it hit
    rcases List.mem_append.mp hit with hbefore | hrest
    · exact ih it (List.mem_append_left _ hbefore)
    · rcases List.mem_cons.mp hrest with rfl | hafter
      · exact (ih _ (List.mem_append_right _ List.mem_cons_self)).next hnext
      · exact ih it (List.mem_append_right _ (List.mem_cons_of_mem _ hafter))

theorem Iteration.next?_eq_none_iff {it : Iteration} (h : it.Follows b) :
    it.next? b = none ↔ it.given = outcomes b := by
  rw [Iteration.next?_eq h, Option.map_eq_none_iff, List.getElem?_eq_none_iff]
  exact ⟨h.given.eq_of_length_le, fun hall => Nat.le_of_eq (congrArg List.length hall.symm)⟩

theorem Iterates.exists_take {its : List Iteration} (h : Iterates b its) {n : Nat}
    (hn : n ≤ (outcomes b).length) :
    ∃ it, Iterates b (its ++ [it]) ∧ it.given = (outcomes b).take n := by
  induction n with
  | zero => exact ⟨.unbegun, h.begin, List.take_zero.symm⟩
  | succ n ih =>
    obtain ⟨it, hits, hgiven⟩ := ih (Nat.le_of_succ_le hn)
    have hfollows := hits.follows it (List.mem_append_right _ List.mem_cons_self)
    have hlength : it.given.length = n := by
      rw [hgiven, List.length_take_of_le (Nat.le_of_succ_le hn)]
    have hnext : it.next? b = some { seen := (outcomes b)[n].joins it.seen,
                                     given := it.given ++ [(outcomes b)[n]] } := by
      rw [Iteration.next?_eq hfollows, hlength, List.getElem?_eq_getElem hn]
      rfl
    refine ⟨_, hits.next hnext, ?_⟩
    rw [hgiven, List.take_append_getElem]

/-- At any time, one more iteration can be begun and taken to the end. -/
theorem Iterates.exists_again {its : List Iteration} (h : Iterates b its) :
    ∃ it, Iterates b (its ++ [it]) ∧ it.given = outcomes b := by
  obtain ⟨it, hits, hgiven⟩ := h.exists_take (Nat.le_refl _)
  exact ⟨it, hits, hgiven.trans List.take_length⟩

end Stream

section Ids

/-- The first mark of a text stands no later than any other. -/
theorem exists_of_beforeMark? {before rest start : List Char}
    (h : beforeMark? (before ++ '-' :: '-' :: rest) = some start) : ∃ suffix,
      before ++ '-' :: '-' :: rest = start ++ '-' :: '-' :: suffix ∧ rest.length ≤ suffix.length := by
  induction before generalizing start with
  | nil =>
    obtain rfl : [] = start := Option.some.inj h
    exact ⟨rest, rfl, Nat.le_refl _⟩
  | cons c before ih =>
    obtain ⟨d, others, hothers⟩ : ∃ d others, before ++ '-' :: '-' :: rest = d :: others := by
      cases before with
      | nil => exact ⟨_, _, rfl⟩
      | cons d before => exact ⟨_, _, rfl⟩
    have hlength := congrArg List.length hothers
    rw [List.cons_append, hothers, beforeMark?] at h
    rw [List.cons_append, hothers]
    split at h
    next hmark =>
      obtain rfl : [] = start := Option.some.inj h
      -- a mark before the one that was given, and so with more behind it
      refine ⟨others, by rw [hmark.1, hmark.2, List.nil_append], ?_⟩
      simp only [List.length_append, List.length_cons] at hlength
      omega
    next =>
      obtain ⟨start', hstart, rfl⟩ := Option.map_eq_some_iff.mp h
      rw [← hothers] at hstart
      obtain ⟨suffix, hsuffix, hle⟩ := ih hstart
      exact ⟨suffix, by rw [← hothers, hsuffix, List.cons_append], hle⟩

/-- The id of a valid object is its type, two hyphens and something more. -/
theorem id_of_mem_valid (h : v ∈ (validate b).valid) :
    Entries.get? "type" v.raw = some (.str v.kind.word) ∧
      Entries.get? "id" v.raw = some (.str v.id) ∧
      ∃ suffix, suffix ≠ "" ∧ v.id = v.kind.word ++ "--" ++ suffix := by
  have hentry := (entry_of_mem_valid h).2
  obtain ⟨_, hread, htype, hid⟩ := (concerns_checkEntry _ _).valid v hentry
  have hform := isReferenceForm_of_read hread hid
  obtain ⟨first, kind, tail, hcs, _, _, htail, _⟩ := Text.isReferenceForm_iff.mp hform
  have hmark := beforeMark?_id hentry
  rw [hcs, ← List.cons_append] at hmark
  obtain ⟨suffix, hsuffix, hle⟩ := exists_of_beforeMark? hmark
  refine ⟨htype, ?_, String.ofList suffix, ?_, ?_⟩
  · obtain ⟨value, hvalue, hstr⟩ := Option.bind_eq_some_iff.mp hid
    cases value with
    | str id => rw [hvalue, Option.some.inj hstr]
    | _ => exact nomatch hstr
  · intro hempty
    -- no shorter than the tail of the form, which is not empty
    have hnil : suffix = [] := by simpa using congrArg String.toList hempty
    rw [hnil] at hle
    exact htail (List.length_eq_zero_iff.mp (Nat.le_zero.mp hle))
  · rw [← String.toList_inj, hcs, ← List.cons_append, hsuffix]
    simp

end Ids

section Repeats

/-- An entry that is valid where it stands alone. -/
theorem valid_alone_iff {o : ValidObject} :
    (validate { objects := [entry] }).valid = [o] ↔ checkEntry 0 entry = .valid o := by
  have hall : outcomes { objects := [entry] } = [checkEntry 0 entry] := by
    have hnone : ∀ v, checkEntry 0 entry = .valid v → v.id ∉ [] := fun _ _ => List.not_mem_nil
    rw [outcomes, outcomesFrom, outcomesFrom, checkAfter_eq_checkEntry hnone]
  rw [validate_eq_report, hall]
  cases checkEntry 0 entry with
  | valid v => simp [Outcome.report, Outcome.object?]
  | _ => simp [Outcome.report, List.filterMap_cons, Outcome.object?]

/-- An entry is valid at a place when it is valid where it stands alone, under the same id. -/
theorem exists_valid_alone_iff {P : String → Prop} :
    (∃ v, checkEntry i entry = .valid v ∧ P v.id) ↔
      ∃ o, (validate { objects := [entry] }).valid = [o] ∧ P o.id := by
  have hmoved := checkEntry_moved (fun _ => i) 0 entry
  simp only [valid_alone_iff, hmoved]
  cases checkEntry 0 entry with
  | valid o => simp [Outcome.moved, ValidObject.moved]
  | _ => simp [Outcome.moved]

theorem code_of_checkObject {k : Kind} {record : List (String × Json)} {cause : IssueCause}
    (h : checkObject i k record = .error cause) : cause.code ≠ "duplicate-id" := by
  unfold checkObject at h
  extract_lets name read at h
  have hread : read () = .error cause → cause.code ≠ "duplicate-id" := by
    intro hread
    simp only [read] at hread
    split at hread
    · obtain rfl := Except.error.inj hread
      simp [IssueCause.code]
    · split at hread
      · obtain rfl := Except.error.inj hread
        simp [IssueCause.code]
      · exact nomatch hread
  split at h
  · split at h
    · obtain rfl := Except.error.inj h
      simp [IssueCause.code]
    · exact hread h
  · exact hread h

/-- Checked by itself, an entry repeats nothing. -/
theorem code_of_checkEntry {x : Issue} (h : checkEntry i entry = .issue x) :
    x.cause.code ≠ "duplicate-id" := by
  unfold checkEntry at h
  split at h
  · simp only at h
    split at h
    · split at h
      · obtain rfl := Outcome.issue.inj h
        simp [IssueCause.code]
      · split at h
        · cases h
        · split at h
          · cases h
          next hcause =>
            obtain rfl := Outcome.issue.inj h
            exact code_of_checkObject hcause
    · obtain rfl := Outcome.issue.inj h
      simp [IssueCause.code]
  · obtain rfl := Outcome.issue.inj h
    simp [IssueCause.code]

/-- An entry repeats an id when it is valid by itself, and its id has been seen. -/
theorem repeats_checkAfter_iff :
    (∃ y, checkAfter seen i entry = .issue y ∧ y.cause.code = "duplicate-id") ↔
      ∃ v, checkEntry i entry = .valid v ∧ v.id ∈ seen := by
  unfold checkAfter
  cases hcheck : checkEntry i entry with
  | valid u =>
    simp only [List.contains_iff_mem, Outcome.valid.injEq, exists_eq_left']
    split
    next hseen => exact iff_of_true ⟨_, rfl, rfl⟩ hseen
    next hunseen => exact iff_of_false (fun ⟨_, hy, _⟩ => Outcome.noConfusion hy) hunseen
  | issue y =>
    -- by itself an entry has other faults, but not this one
    refine iff_of_false ?_ fun ⟨_, hv, _⟩ => Outcome.noConfusion hv
    rintro ⟨_, hy, hcode⟩
    exact code_of_checkEntry (hcheck.trans hy) hcode
  | unknown u =>
    exact iff_of_false (fun ⟨_, hy, _⟩ => Outcome.noConfusion hy) fun ⟨_, hv, _⟩ =>
      Outcome.noConfusion hv

/-- The ids seen before a place are those of the valid objects that stand before it. -/
theorem mem_seen_iff {id : String} :
    id ∈ ((outcomes b).take i).foldl Outcome.joins [] ↔
      ∃ w ∈ (validate b).valid, w.index < i ∧ w.id = id := by
  simp only [mem_foldl_joins, List.not_mem_nil, or_false, mem_valid_iff]
  constructor
  · rintro ⟨w, hw, hid⟩
    obtain ⟨j, hj, hget⟩ := List.mem_take_iff_getElem.mp hw
    have hplace : w.index = j := index_of_getElem? (List.getElem?_eq_some_iff.mpr ⟨_, hget⟩)
    exact ⟨w, List.mem_of_mem_take hw, by omega, hid⟩
  · rintro ⟨w, hw, hlt, hid⟩
    have htake : ((outcomes b).take i)[w.index]? = some (.valid w) := by
      rw [List.getElem?_take_of_lt hlt]
      exact getElem?_index hw
    exact ⟨w, List.mem_of_getElem? htake, hid⟩

section At

variable (hx : (outcomes b)[i]? = some x) (hentry : b.objects[i]? = some entry)

include hx hentry

theorem eq_checkAfter : x = checkAfter (((outcomes b).take i).foldl Outcome.joins []) i entry := by
  rw [getElem?_outcomes, hentry] at hx
  exact (Option.some.inj hx).symm

theorem valid_at_iff : x = .valid v ↔ checkEntry i entry = .valid v ∧
    ∀ w ∈ (validate b).valid, w.index < i → w.id ≠ v.id := by
  have hnew : (∀ w ∈ (validate b).valid, w.index < i → w.id ≠ v.id) ↔
      v.id ∉ ((outcomes b).take i).foldl Outcome.joins [] := by
    rw [mem_seen_iff]
    exact ⟨fun h ⟨w, hw, hlt, hid⟩ => h w hw hlt hid, fun h w hw hlt hid => h ⟨w, hw, hlt, hid⟩⟩
  rw [hnew, eq_checkAfter hx hentry]
  exact checkAfter_eq_valid_iff

theorem repeated_at_iff : (∃ y, x = .issue y ∧ y.cause.code = "duplicate-id") ↔
    ∃ v, checkEntry i entry = .valid v ∧
      ∃ w ∈ (validate b).valid, w.index < i ∧ w.id = v.id := by
  simp only [← mem_seen_iff]
  rw [eq_checkAfter hx hentry]
  exact repeats_checkAfter_iff

end At

theorem exists_valid_at_iff (hx : (outcomes b)[i]? = some x) :
    (∃ v ∈ (validate b).valid, v.index = i) ↔ ∃ v, x = .valid v := by
  simp only [mem_valid_iff]
  constructor
  · rintro ⟨v, hv, rfl⟩
    exact ⟨v, Option.some.inj (hx.symm.trans (getElem?_index hv))⟩
  · rintro ⟨v, rfl⟩
    exact ⟨v, List.mem_of_getElem? hx, index_of_getElem? hx⟩

theorem mem_issues_iff {y : Issue} : y ∈ (validate b).issues ↔ .issue y ∈ outcomes b := by
  rw [validate_eq_report]
  constructor
  · intro h
    obtain ⟨x, hx, hy⟩ := List.mem_filterMap.mp h
    cases x with
    | issue z => exact Option.some.inj hy ▸ hx
    | _ => exact nomatch hy
  · exact fun h => List.mem_filterMap.mpr ⟨_, h, rfl⟩

theorem exists_issue_at_iff (hx : (outcomes b)[i]? = some x) {P : Issue → Prop} :
    (∃ y ∈ (validate b).issues, y.index = i ∧ P y) ↔ ∃ y, x = .issue y ∧ P y := by
  simp only [mem_issues_iff]
  constructor
  · rintro ⟨y, hy, rfl, hP⟩
    exact ⟨y, Option.some.inj (hx.symm.trans (getElem?_index hy)), hP⟩
  · rintro ⟨y, rfl, hP⟩
    exact ⟨y, List.mem_of_getElem? hx, index_of_getElem? hx, hP⟩

theorem id_ne_of_index_lt {w : ValidObject} (hw : w ∈ (validate b).valid)
    (hv : v ∈ (validate b).valid) (hlt : w.index < v.index) : w.id ≠ v.id := by
  have hat : (outcomes b)[v.index]? = some (.valid v) := getElem?_index (mem_valid_iff.mp hv)
  exact ((valid_at_iff hat (entry_of_mem_valid hv).1).mp rfl).2 w hw hlt

end Repeats

/-- The entries of a bundle as a report sorts them. -/
structure Bundle.Sorted (b : Bundle) : Prop where
  /-- Each place is that of one outcome, in one of the lists. -/
  places : ((validate b).valid.map ValidObject.index ++ (validate b).issues.map Issue.index ++
    (validate b).unknown.map UnknownType.index).Perm (List.range b.objects.length)
  /-- Each list has the order of the bundle. -/
  order : ((validate b).valid.map ValidObject.index).Pairwise (· < ·) ∧
    ((validate b).issues.map Issue.index).Pairwise (· < ·) ∧
    ((validate b).unknown.map UnknownType.index).Pairwise (· < ·)
  /-- Iterations that are begun and taken on in any order give the same outcomes, each from the first
  one on, and come to an end when they have given them all. -/
  iterations : ∀ its, Iterates b its → ∀ it ∈ its,
    it.given <+: outcomes b ∧ (it.next? b = none ↔ it.given = outcomes b)
  /-- At any time, one more iteration gives all the outcomes again. -/
  again : ∀ its, Iterates b its → ∃ it, Iterates b (its ++ [it]) ∧ it.given = outcomes b
  /-- A valid object is the entry at its place, and its id starts with its type. -/
  ids : ∀ v ∈ (validate b).valid, b.objects[v.index]? = some (.obj v.raw) ∧
    Entries.get? "type" v.raw = some (.str v.kind.word) ∧
    Entries.get? "id" v.raw = some (.str v.id) ∧
    ∃ suffix, suffix ≠ "" ∧ v.id = v.kind.word ++ "--" ++ suffix
  distinct : ((validate b).valid.map ValidObject.id).Nodup
  /-- An entry repeats an id when it is valid where it stands alone, and a valid object with its id
  stands before it. -/
  repeated : ∀ i entry, b.objects[i]? = some entry →
    ((∃ x ∈ (validate b).issues, x.index = i ∧ x.cause.code = "duplicate-id") ↔
      ∃ o, (validate { objects := [entry] }).valid = [o] ∧
        ∃ w ∈ (validate b).valid, w.index < i ∧ w.id = o.id)
  /-- An entry counts when it is valid where it stands alone, and no valid object with its id stands
  before it. -/
  kept : ∀ i entry, b.objects[i]? = some entry →
    ((∃ v ∈ (validate b).valid, v.index = i) ↔
      ∃ o, (validate { objects := [entry] }).valid = [o] ∧
        ∀ w ∈ (validate b).valid, w.index < i → w.id ≠ o.id)

theorem validate_sorted (b : Bundle) : b.Sorted := by
  have hat : ∀ (i : Nat) (entry : Json), b.objects[i]? = some entry →
      ∃ x, (outcomes b)[i]? = some x := by
    intro i entry hentry
    rw [getElem?_outcomes, hentry]
    exact ⟨_, rfl⟩
  refine ⟨?places, pairwise_index_report b, ?iterations, fun its hits => hits.exists_again, ?ids,
    ?distinct, ?repeated, ?kept⟩
  case places =>
    rw [validate_eq_report, ← map_index_outcomes]
    exact perm_index_report _
  case iterations =>
    intro its hits it hit
    have hfollows := hits.follows it hit
    exact ⟨hfollows.given, Iteration.next?_eq_none_iff hfollows⟩
  case ids =>
    exact fun v hv => ⟨(entry_of_mem_valid hv).1, id_of_mem_valid hv⟩
  case distinct =>
    have hpairs : (validate b).valid.Pairwise fun w v => w.index < v.index :=
      List.pairwise_map.mp (pairwise_index_report b).1
    exact List.pairwise_map.mpr (hpairs.imp_of_mem id_ne_of_index_lt)
  case repeated =>
    intro i entry hentry
    obtain ⟨x, hx⟩ := hat i entry hentry
    rw [exists_issue_at_iff hx, repeated_at_iff hx hentry]
    exact exists_valid_alone_iff (P := fun id => ∃ w ∈ (validate b).valid, w.index < i ∧ w.id = id)
  case kept =>
    intro i entry hentry
    obtain ⟨x, hx⟩ := hat i entry hentry
    simp only [exists_valid_at_iff hx, valid_at_iff hx hentry]
    exact exists_valid_alone_iff (P := fun id => ∀ w ∈ (validate b).valid, w.index < i → w.id ≠ id)

/-- An object without a name does not stand in the way of the good one behind it, and that one does.
-/
example :
    let report := validate { objects := [dated "tool" "tool--a" [],
      dated "tool" "tool--a" [("name", .str "a")], dated "tool" "tool--a" [("name", .str "b")]] }
    report.valid.map ValidObject.index = [1] ∧
      report.issues.map (fun x => (x.index, x.cause.code)) =
        [(0, "invalid-object"), (2, "duplicate-id")] := by
  decide +kernel

end GraphWorkbench.Stix
