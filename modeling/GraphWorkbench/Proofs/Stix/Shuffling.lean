import GraphWorkbench.Proofs.Stix.Counting
import GraphWorkbench.Proofs.Stix.Outcomes
import Mathlib.Data.List.Perm.Basic
import Mathlib.Data.List.GetD
/-!
Bundles whose entries stand in another order. Things are mapped before all that connects them, so
what a bundle comes to goes by the order of the things and by that of the connections, but not by how
the two stand among each other. Where both orders are kept, only the places that are told change.
-/
namespace GraphWorkbench

open Outcome

namespace Stix

/-! Lists of entries of some sorts. -/

section Sorts

variable {α : Type} {sort : α → Option Bool} {l l' : List α}

/-- A list by the sorts of its items. -/
theorem perm_sorts (sort : α → Option Bool) (l : List α) :
    l.Perm (l.filter (sort · = some false) ++ l.filter (sort · = some true) ++
      l.filter (sort · = none)) := by
  induction l with
  | nil => rfl
  | cons a rest ih =>
    have hrest := ih.cons a
    simp only [List.filter_cons]
    cases hsort : sort a with
    | none =>
      simp only [reduceCtorEq, decide_false, decide_true, Bool.false_eq_true, if_false, if_true]
      exact hrest.trans List.perm_middle.symm
    | some connects =>
      cases connects with
      | false => simpa using hrest
      | true =>
        simp only [reduceCtorEq, decide_false, decide_true, Bool.false_eq_true, if_false, if_true,
          Option.some.injEq]
        exact hrest.trans (List.perm_middle.symm.append_right _)

/-- Distinct places are moved to others by a move that does not bring any two places together. -/
theorem exists_injective_move {places places' : List Nat} (distinct : places.Nodup)
    (same : places.Perm places') :
    ∃ move : Nat → Nat, move.Injective ∧ places.map move = places' := by
  have hlength := same.length_eq
  have hdistinct' := same.nodup_iff.mp distinct
  let move (i : Nat) : Nat := places'.getD (places.idxOf i) i
  have hmoved : ∀ i ∈ places, places'[places.idxOf i]? = some (move i) := by
    intro i hi
    have hlt : places.idxOf i < places'.length := hlength ▸ List.idxOf_lt_length_iff.mpr hi
    rw [List.getElem?_eq_getElem hlt]
    exact congrArg some (List.getD_eq_getElem _ _ hlt).symm
  have hkept : ∀ i ∉ places, move i = i := by
    intro i hi
    have hge : places'.length ≤ places.idxOf i :=
      hlength ▸ Nat.le_of_eq (List.idxOf_eq_length hi).symm
    exact List.getD_eq_default _ _ hge
  have hmem : ∀ i, move i ∈ places ↔ i ∈ places := by
    intro i
    by_cases hi : i ∈ places
    · exact iff_of_true (same.mem_iff.mpr (List.mem_of_getElem? (hmoved i hi))) hi
    · rw [hkept i hi]
  refine ⟨move, fun i j hij => ?_, ?_⟩
  · by_cases hi : i ∈ places
    · have hj : j ∈ places := by rwa [← hmem, ← hij, hmem]
      have hlt : places.idxOf i < places'.length := hlength ▸ List.idxOf_lt_length_iff.mpr hi
      have hsame : places'[places.idxOf i]? = places'[places.idxOf j]? := by
        rw [hmoved i hi, hmoved j hj, hij]
      exact (List.idxOf_inj hi).mp ((List.getElem?_inj hlt hdistinct').mp hsame)
    · have hj : j ∉ places := by rwa [← hmem, ← hij, hmem]
      rwa [hkept i hi, hkept j hj] at hij
  · refine List.ext_getElem (by rw [List.length_map, hlength]) fun n hn hn' => ?_
    have hplace : n < places.length := hlength ▸ hn'
    have hn := hmoved _ (List.getElem_mem hplace)
    rw [distinct.idxOf_getElem n hplace, List.getElem?_eq_getElem hn'] at hn
    rw [List.getElem_map]
    exact (Option.some.inj hn).symm

theorem eq_of_map_fst_snd {β : Type} {xs ys : List (α × β)} (fst : xs.map Prod.fst = ys.map Prod.fst)
    (snd : xs.map Prod.snd = ys.map Prod.snd) : xs = ys := by
  have hxs := List.zip_unzip xs
  have hys := List.zip_unzip ys
  rw [List.unzip_eq_map] at hxs hys
  rw [← hxs, ← hys, fst, snd]

/-- What comes in the order of the images of some items are the images of these in that order. -/
theorem exists_perm_of_perm_map {β : Type} {f : β → α} {items : List β}
    (h : l.Perm (items.map f)) : ∃ ordered : List β, ordered.Perm items ∧ ordered.map f = l := by
  have hown : List.Forall₂ (fun a b => a = f b) (items.map f) items :=
    List.forall₂_map_left_iff.mpr (List.forall₂_same.mpr fun _ _ => rfl)
  obtain ⟨ordered, hmatch, hperm⟩ := List.perm_comp_forall₂ h hown
  have himages : List.Forall₂ Eq l (ordered.map f) := List.forall₂_map_right_iff.mpr hmatch
  rw [List.forall₂_eq_eq_eq] at himages
  exact ⟨ordered, hperm, himages.symm⟩

/-- The items of one sort, each with its place. -/
def placesOf (sort : α → Option Bool) (which : Option Bool) (l : List α) : List (α × Nat) :=
  l.zipIdx.filter fun e => sort e.1 = which

theorem map_fst_placesOf (which : Option Bool) (l : List α) :
    (placesOf sort which l).map Prod.fst = l.filter (sort · = which) := by
  have hall : l.zipIdx.map Prod.fst = l := List.zipIdx_map_fst 0 l
  conv_rhs => rw [← hall, List.filter_map]
  rfl

theorem perm_placesOf (sort : α → Option Bool) (l : List α) :
    (placesOf sort (some false) l ++ placesOf sort (some true) l ++ placesOf sort none l).Perm
      l.zipIdx :=
  (perm_sorts (fun e : α × Nat => sort e.1) l.zipIdx).symm

/-- Items in another order, of which those of either sort keep theirs, stand at other places of their
own. -/
theorem exists_places (same : l'.Perm l)
    (order : ∀ c, l'.filter (sort · = some c) = l.filter (sort · = some c)) :
    ∃ move : Nat → Nat, move.Injective ∧
      l'.zipIdx.Perm (l.zipIdx.map (Prod.map id move)) ∧
      ∀ c, placesOf sort (some c) l' = (placesOf sort (some c) l).map (Prod.map id move) := by
  have hnone : ((placesOf sort none l).map Prod.fst).Perm
      ((placesOf sort none l').map Prod.fst) := by
    rw [map_fst_placesOf, map_fst_placesOf]
    exact (same.filter _).symm
  -- items of neither sort are the same in an order of their own
  obtain ⟨others, hothers, hfst⟩ := exists_perm_of_perm_map hnone
  have hsorted : ∀ c, (placesOf sort (some c) l).map Prod.fst =
      (placesOf sort (some c) l').map Prod.fst := by
    intro c
    rw [map_fst_placesOf, map_fst_placesOf, order]
  let places := placesOf sort (some false) l ++ placesOf sort (some true) l ++ placesOf sort none l
  let places' := placesOf sort (some false) l' ++ placesOf sort (some true) l' ++ others
  have hplaces : places.Perm l.zipIdx := perm_placesOf sort l
  have hplaces' : places'.Perm l'.zipIdx := (hothers.append_left _).trans (perm_placesOf sort l')
  have hsnd : (places.map Prod.snd).Perm (places'.map Prod.snd) := by
    have h := hplaces.map Prod.snd
    have h' := hplaces'.map Prod.snd
    rw [List.zipIdx_map_snd] at h h'
    rw [same.length_eq] at h'
    exact h.trans h'.symm
  have hdistinct : (places.map Prod.snd).Nodup := by
    refine (hplaces.map Prod.snd).nodup_iff.mpr ?_
    rw [List.zipIdx_map_snd]
    exact List.nodup_range'
  obtain ⟨move, hmove, hmoved⟩ := exists_injective_move hdistinct hsnd
  have hall : places.map (Prod.map id move) = places' := by
    refine eq_of_map_fst_snd ?_ ?_
    · have hown : (places.map (Prod.map id move)).map Prod.fst = places.map Prod.fst := by
        rw [List.map_map]
        rfl
      rw [hown]
      simp only [places, places', List.map_append, hsorted, hfst]
    · rw [← hmoved, List.map_map, List.map_map]
      rfl
  have hlength : ∀ c, ((placesOf sort (some c) l).map (Prod.map id move)).length =
      (placesOf sort (some c) l').length := by
    intro c
    simpa using congrArg List.length (hsorted c)
  have hparts := hall
  simp only [places, places', List.map_append] at hparts
  obtain ⟨hboth, _⟩ := List.append_inj hparts (by simp only [List.length_append, hlength])
  obtain ⟨hfalse, htrue⟩ := List.append_inj hboth (hlength false)
  refine ⟨move, hmove, ?_, Bool.forall_bool.mpr ⟨hfalse.symm, htrue.symm⟩⟩
  rw [← hall] at hplaces'
  exact hplaces'.symm.trans (hplaces.map _)

end Sorts

/-! Entries in another order. -/

/-- Whether an entry connects others, by its type; none for what is of no known kind. -/
def connects? (entry : Json) : Option Bool := (entryKind? entry).map Kind.connects

/-- Two bundles with the same entries, of which the things come in the same order and the connections
come in the same order. -/
structure Bundle.Shuffled (b b' : Bundle) : Prop where
  same : b'.objects.Perm b.objects
  order : ∀ c, b'.objects.filter (connects? · = some c) = b.objects.filter (connects? · = some c)

def Outcome.connects? (x : Outcome) : Option Bool := x.kind?.map Kind.connects

section Entries

variable {b b' : Bundle} {move : Nat → Nat} {entries entries' : List (Json × Nat)}

/-- Entries of no known kind are told of one by one. -/
theorem outcomesAlong_of_noKind (seen : List String)
    (noKind : ∀ e ∈ entries, entryKind? e.1 = none) :
    outcomesAlong seen entries = entries.map fun e => checkEntry e.2 e.1 := by
  induction entries generalizing seen with
  | nil => rfl
  | cons e rest ih =>
    obtain ⟨hentry, hrest⟩ := List.forall_mem_cons.mp noKind
    have halone : checkAfter seen e.2 e.1 = checkEntry e.2 e.1 := by
      refine checkAfter_eq_checkEntry fun v hchecked => ?_
      have hkind := kind?_checkEntry e.2 e.1
      rw [hentry, hchecked] at hkind
      exact nomatch hkind
    rw [outcomesAlong, ih _ hrest, halone, List.map_cons]

/-- The outcomes of entries of one sort are those of these entries alone. -/
theorem filter_outcomes_sort (which : Option Bool) (entries : List (Json × Nat)) :
    (outcomesAlong [] entries).filter (·.connects? = which) =
      outcomesAlong [] (entries.filter fun e => connects? e.1 = which) :=
  filter_outcomesAlong (fun kind => kind.map Kind.connects = which) fun _ _ _ _ _ => Iff.rfl

/-- What becomes of entries in another order. An id is repeated within one kind only, so what is seen
of the other sort is of no account. -/
theorem outcomes_perm (same : entries'.Perm entries)
    (order : ∀ c, (entries'.filter fun e => connects? e.1 = some c) =
      entries.filter fun e => connects? e.1 = some c) :
    (outcomesAlong [] entries').Perm (outcomesAlong [] entries) ∧
      ∀ c, (outcomesAlong [] entries').filter (·.connects? = some c) =
        (outcomesAlong [] entries).filter (·.connects? = some c) := by
  have hsorted : ∀ c, (outcomesAlong [] entries').filter (·.connects? = some c) =
      (outcomesAlong [] entries).filter (·.connects? = some c) := by
    intro c
    rw [filter_outcomes_sort, filter_outcomes_sort, order]
  -- of no known kind is nothing that could repeat an id
  have hothers : ((outcomesAlong [] entries').filter (·.connects? = none)).Perm
      ((outcomesAlong [] entries).filter (·.connects? = none)) := by
    have hnone : ∀ entries : List (Json × Nat),
        (outcomesAlong [] entries).filter (·.connects? = none) =
          (entries.filter fun e => connects? e.1 = none).map fun e => checkEntry e.2 e.1 := by
      intro entries
      rw [filter_outcomes_sort]
      refine outcomesAlong_of_noKind [] fun e he => ?_
      simpa [connects?] using (List.mem_filter.mp he).2
    rw [hnone, hnone]
    exact (same.filter _).map _
  refine ⟨(perm_sorts Outcome.connects? _).trans (.trans ?_ (perm_sorts Outcome.connects? _).symm),
    hsorted⟩
  rw [hsorted, hsorted]
  exact hothers.append_left _

/-- How the entries of a bundle stand at other places in another one: what becomes of them is the
same at these places, and of things and of connections in the same order. -/
structure Bundle.MovedBy (move : Nat → Nat) (b b' : Bundle) : Prop where
  injective : move.Injective
  places : ∀ i < b.objects.length, b'.objects[move i]? = b.objects[i]?
  length : b'.objects.length = b.objects.length
  same : (outcomes b').Perm ((outcomes b).map (Outcome.moved move))
  order : ∀ c, (outcomes b').filter (·.connects? = some c) =
    ((outcomes b).map (Outcome.moved move)).filter (·.connects? = some c)

theorem exists_movedBy (h : b.Shuffled b') : ∃ move, b.MovedBy move b' := by
  obtain ⟨move, hmove, hperm, hsorted⟩ := exists_places h.same h.order
  have houtcomes : (outcomes b).map (Outcome.moved move) =
      outcomesAlong [] (b.objects.zipIdx.map (Prod.map id move)) := by
    rw [outcomes, outcomesFrom_eq_along, outcomesAlong_moved]
  have houtcomes' : outcomes b' = outcomesAlong [] b'.objects.zipIdx := outcomesFrom_eq_along ..
  obtain ⟨hsame, horder⟩ := outcomes_perm hperm fun c => by
    rw [List.filter_map]
    exact hsorted c
  refine ⟨move, hmove, fun i hi => ?_, h.same.length_eq, ?_, ?_⟩
  · have hentry : (b.objects[i], i) ∈ b.objects.zipIdx :=
      List.mk_mem_zipIdx_iff_getElem?.mpr (List.getElem?_eq_getElem hi)
    have hmoved := hperm.mem_iff.mpr (List.mem_map_of_mem hentry)
    rw [List.getElem?_eq_getElem hi]
    exact List.mk_mem_zipIdx_iff_getElem?.mp hmoved
  · rw [houtcomes, houtcomes']
    exact hsame
  · rw [houtcomes, houtcomes']
    exact horder

end Entries

/-! What is told of shuffled entries. -/

section Reports

variable {p : Preset} {o : Options} {d : Document} {vs ws : List ValidObject} {b b' : Bundle}
  {move : Nat → Nat}

theorem filter_valid_report (c : Bool) (xs : List Outcome) :
    ((Outcome.report xs).valid.filter fun v => v.kind.connects = c) =
      (Outcome.report (xs.filter (·.connects? = some c))).valid := by
  simp only [Outcome.report, List.filter_filterMap, List.filterMap_filter]
  refine List.filterMap_congr fun x _ => ?_
  cases x with
  | valid v => simp [Outcome.object?, Outcome.connects?, Outcome.kind?, Option.filter]
  | _ => simp [Outcome.object?]

/-- Mapping goes by the order of things and by that of connections. -/
theorem mapToGraph_congr
    (order : ∀ c, (vs.filter fun v => v.kind.connects = c) = ws.filter fun v => v.kind.connects = c) :
    mapToGraph p o d vs = mapToGraph p o d ws := by
  have hthings : (vs.filter fun v => !v.kind.connects) = ws.filter fun v => !v.kind.connects := by
    simpa using order false
  have hconnections : (vs.filter fun v => v.kind.connects) = ws.filter fun v => v.kind.connects := by
    simpa using order true
  unfold mapToGraph
  simp only [hthings, hconnections]

section Moved

theorem report_moved_outcomes (move : Nat → Nat) (b : Bundle) :
    Outcome.report ((outcomes b).map (Outcome.moved move)) =
      { valid := (validate b).valid.map (ValidObject.moved move)
        issues := (validate b).issues.map (Issue.moved move)
        unknown := (validate b).unknown.map (UnknownType.moved move) } := by
  rw [Outcome.report_moved, ← validate_eq_report]

theorem Bundle.MovedBy.mapToGraph_eq (h : b.MovedBy move b') :
    mapToGraph p o d (validate b').valid =
      (mapToGraph p o d (validate b).valid).map (Candidate.moved move) := by
  have horder : ∀ c, (Outcome.report (outcomes b')).valid.filter (·.kind.connects = c) =
      (Outcome.report ((outcomes b).map (Outcome.moved move))).valid.filter
        (·.kind.connects = c) := by
    intro c
    rw [filter_valid_report, filter_valid_report, h.order]
  rw [← mapToGraph_moved, validate_eq_report, mapToGraph_congr horder, report_moved_outcomes]

theorem Bundle.MovedBy.issues_perm (h : b.MovedBy move b') :
    (validate b').issues.Perm ((validate b).issues.map (Issue.moved move)) := by
  have hsame : (Outcome.report (outcomes b')).issues.Perm
      (Outcome.report ((outcomes b).map (Outcome.moved move))).issues := h.same.filterMap _
  rwa [report_moved_outcomes, ← validate_eq_report] at hsame

theorem Bundle.MovedBy.unknown_perm (h : b.MovedBy move b') :
    (validate b').unknown.Perm ((validate b).unknown.map (UnknownType.moved move)) := by
  have hsame : (Outcome.report (outcomes b')).unknown.Perm
      (Outcome.report ((outcomes b).map (Outcome.moved move))).unknown := h.same.filterMap _
  rwa [report_moved_outcomes, ← validate_eq_report] at hsame

theorem nodup_index_issues (b : Bundle) : ((validate b).issues.map Issue.index).Nodup :=
  (pairwise_index_report b).2.1.imp Nat.ne_of_lt

/-- Unknown types are told in the order of their places. -/
theorem pairwise_index_unknown (b : Bundle) :
    (validate b).unknown.Pairwise fun u w => u.index < w.index :=
  List.pairwise_map.mp (pairwise_index_report b).2.2

end Moved

end Reports

/-! Summaries of the same entries at other places. -/

/-- A summary with the places of the entries moved. Issues and unknown types are told in the order of
the places. -/
def Summary.renumbered (move : Nat → Nat) (t : Summary) : Summary :=
  { t with
    unknown := (t.unknown.map (UnknownType.moved move)).mergeSort fun a b => a.index ≤ b.index
    warnings := t.warnings.map (Warning.moved move)
    issues := (t.issues.map (Issue.moved move)).mergeSort fun a b => a.index ≤ b.index }

section Summaries

variable {p : Preset} {s : Store} {o : Options} {origin origin' : Bundle.Origin} {b b' : Bundle}
  {move : Nat → Nat} {c : Candidate} {accepted : List Item}

/-- Moving issues and sorting them by their new places leaves those about one place in order. -/
theorem filter_moved_sorted (hmove : move.Injective) (issues : List Issue) (j : Nat) :
    ((issues.mergeSort fun a b => a.index ≤ b.index).map (Issue.moved move)).filter
      (Issue.index · = j) = (issues.map (Issue.moved move)).filter (Issue.index · = j) := by
  rw [List.filter_map, List.filter_map]
  refine congrArg _ ?_
  by_cases hj : ∃ i, move i = j
  · obtain ⟨i, rfl⟩ := hj
    have hplace : ∀ x : Issue, decide ((x.moved move).index = move i) = decide (x.index = i) :=
      fun x => decide_eq_decide.mpr hmove.eq_iff
    simp only [Function.comp_def, hplace]
    exact filter_mergeSort_key Issue.index issues i
  · have hnone : ∀ issues : List Issue,
        issues.filter ((fun x : Issue => decide (x.index = j)) ∘ Issue.moved move) = [] := by
      intro issues
      refine List.filter_eq_nil_iff.mpr fun x _ => ?_
      simp only [Function.comp_apply, decide_eq_true_eq]
      exact fun h => hj ⟨x.index, h⟩
    rw [hnone, hnone]

theorem Bundle.MovedBy.unknown_eq (h : b.MovedBy move b') :
    (validate b').unknown = ((validate b).unknown.map (UnknownType.moved move)).mergeSort
      fun a b => a.index ≤ b.index := by
  have hsorted := pairwise_index_unknown b'
  have hdistinct : ((validate b').unknown.map UnknownType.index).Nodup :=
    List.pairwise_map.mpr (hsorted.imp fun hlt => Nat.ne_of_lt hlt)
  have hown : ((validate b').unknown.mergeSort fun a b => a.index ≤ b.index) =
      (validate b').unknown :=
    List.mergeSort_of_pairwise (hsorted.imp fun hlt => decide_eq_true (Nat.le_of_lt hlt))
  rw [← hown]
  exact mergeSort_eq_of_filter_eq (filter_eq_of_perm h.unknown_perm hdistinct)

theorem Bundle.MovedBy.issues_eq (h : b.MovedBy move b') (issues : List Issue) :
    (((validate b').issues ++ issues.map (Issue.moved move)).mergeSort
      fun a b => a.index ≤ b.index) =
        ((((validate b).issues ++ issues).mergeSort fun a b => a.index ≤ b.index).map
          (Issue.moved move)).mergeSort fun a b => a.index ≤ b.index := by
  -- validation tells at most one issue of a place, and the others come in the same order
  have hdistinct := nodup_index_issues b'
  refine mergeSort_eq_of_filter_eq fun j => ?_
  rw [filter_moved_sorted h.injective, List.map_append, List.filter_append, List.filter_append,
    filter_eq_of_perm h.issues_perm hdistinct]

theorem Bundle.MovedBy.byType_eq (h : b.MovedBy move b') (c : Candidate)
    (accepted accepted' : List Item) :
    (summarize b' (validate b') (c.moved move) accepted').byType =
      (summarize b (validate b) c accepted).byType := by
  rw [byType_summarize, byType_summarize]
  refine congrArg Table.ofEntries (Table.inOrder_eq fun key => ?_)
  have htypes : ((validate b').unknown.map UnknownType.type).Perm
      ((validate b).unknown.map UnknownType.type) := by
    have htypes := h.unknown_perm.map UnknownType.type
    rwa [List.map_map] at htypes
  rw [Table.get?_counting, Table.get?_counting, htypes.count_eq]
  rfl

theorem Bundle.MovedBy.summarize_eq (h : b.MovedBy move b') (c : Candidate) (accepted : List Item) :
    summarize b' (validate b') (c.moved move) (accepted.map (Item.moved move)) =
      (summarize b (validate b) c accepted).renumbered move := by
  have hcount : ∀ counted : Item → Bool, (∀ item, counted (item.moved move) = counted item) →
      (accepted.map (Item.moved move)).countP counted = accepted.countP counted :=
    fun _ same => countP_moved move same accepted
  have hlength : (validate b').unknown.length = (validate b).unknown.length := by
    rw [h.unknown_perm.length_eq, List.length_map]
  have hbyType := h.byType_eq c accepted (accepted.map (Item.moved move))
  unfold summarize at hbyType ⊢
  simp only [Summary.renumbered, Summary.mk.injEq]
  refine ⟨h.length, hcount _ fun _ => rfl, hcount _ fun _ => rfl, ?_, h.unknown_eq, rfl,
    h.issues_eq c.issues, hbyType⟩
  rw [hlength]
  rfl

/-! Imports of the same entries at other places. -/

/-- What is prepared from a bundle that was read. -/
theorem prepare_of_read (read : Bundle.read origin = .ok (.ok b)) :
    prepare s o origin =
      ((mapToGraph s.preset o s.document (validate b).valid >>=
        stage s.preset s.document).mapError fun f => .stop (.fault f)).map fun r =>
          (b, validate b, r.1, r.2) := by
  unfold prepare
  simp only [read, Except.mapError, ok_bind]
  cases mapToGraph s.preset o s.document (validate b).valid with
  | error e => rfl
  | ok c =>
    simp only [ok_bind]
    cases stage s.preset s.document c <;> rfl

theorem Bundle.MovedBy.prepare_eq (h : b.MovedBy move b')
    (read : Bundle.read origin = .ok (.ok b)) (read' : Bundle.read origin' = .ok (.ok b')) :
    prepare s o origin' = (prepare s o origin).map fun r =>
      (b', validate b', r.2.2.1.moved move, r.2.2.2.map (Item.moved move)) := by
  rw [prepare_of_read read, prepare_of_read read', h.mapToGraph_eq]
  cases mapToGraph s.preset o s.document (validate b).valid with
  | error e => rfl
  | ok c =>
    have hstage : stage s.preset s.document (c.moved move) =
        (stage s.preset s.document c).map (Prod.map (Candidate.moved move)
          (List.map (Item.moved move))) := stageItems_moved move c.items _ c
    simp only [Except.map, ok_bind, hstage]
    cases stage s.preset s.document c <;> rfl

theorem commit_moved (move : Nat → Nat) (s : Store) (accepted : List Item) :
    commit s (accepted.map (Item.moved move)) = commit s accepted := by
  unfold commit
  rw [mutations_moved, List.isEmpty_map]

/-- An import of the same entries at other places ends in the same store, but for what was told, and
with the same summary, but for the places. -/
theorem Bundle.MovedBy.importInto_eq (h : b.MovedBy move b')
    (read : Bundle.read origin = .ok (.ok b)) (read' : Bundle.read origin' = .ok (.ok b'))
    (cancelled : Bool) :
    (importInto s o origin' cancelled).1 =
        { (importInto s o origin cancelled).1 with log := (importInto s o origin' cancelled).1.log } ∧
      (importInto s o origin' cancelled).2 =
        (importInto s o origin cancelled).2.map (Summary.renumbered move) := by
  have hprepared : prepare s o origin' = _ := h.prepare_eq read read'
  cases hprepare : prepare s o origin with
  | error e =>
    rw [hprepare] at hprepared
    rw [importInto_of_error hprepare, importInto_of_error hprepared]
    exact ⟨rfl, rfl⟩
  | ok prepared =>
    obtain ⟨_, _, c, accepted⟩ := prepared
    obtain ⟨hread, rfl, _⟩ := prepare_eq_ok_iff.mp hprepare
    obtain rfl := Except.ok.inj (Except.ok.inj (read.symm.trans hread))
    rw [hprepare] at hprepared
    cases cancelled with
    | true =>
      rw [importInto_of_cancelled hprepare, importInto_of_cancelled hprepared]
      exact ⟨rfl, rfl⟩
    | false =>
      have hcommit := commit_moved move s accepted
      cases hended : (commit s accepted).2 with
      | error stop =>
        rw [importInto_of_stop hprepare hended, importInto_of_stop hprepared (hcommit ▸ hended),
          hcommit]
        exact ⟨rfl, rfl⟩
      | ok _ =>
        rw [importInto_of_commit hprepare hended, importInto_of_commit hprepared (hcommit ▸ hended),
          hcommit, h.summarize_eq]
        exact ⟨rfl, rfl⟩

end Summaries

/-- Of two bundles with the same entries, of which the things come in the same order and the
connections come in the same order, either is imported with the same end: the entries of the one stand
at other places in the other, and this is all that makes a difference to what is told. -/
theorem importInto_shuffled {origin origin' : Bundle.Origin} {b b' : Bundle}
    (read : Bundle.read origin = .ok (.ok b)) (read' : Bundle.read origin' = .ok (.ok b'))
    (shuffled : b.Shuffled b') :
    ∃ move : Nat → Nat, move.Injective ∧
      (∀ i < b.objects.length, b'.objects[move i]? = b.objects[i]?) ∧
      ∀ (s : Store) (o : Options) (cancelled : Bool),
        let after := importInto s o origin cancelled
        let after' := importInto s o origin' cancelled
        after'.1 = { after.1 with log := after'.1.log } ∧
          after'.2 = after.2.map (Summary.renumbered move) := by
  obtain ⟨move, h⟩ := exists_movedBy shuffled
  exact ⟨move, h.injective, h.places, fun _ _ cancelled => h.importInto_eq read read' cancelled⟩

section Example

/-- A link before the hosts that it connects; something of an unknown type; a host twice over, and a
link to a host that is missing. -/
def linksFirst : List Json :=
  [uses "relationship--a" "identity--a" "identity--b", dated "x-note" "x-note--a" [],
    dated "identity" "identity--b" [("name", .str "b")],
    dated "identity" "identity--a" [("name", .str "a")],
    dated "identity" "identity--b" [("name", .str "b again")],
    uses "relationship--b" "identity--a" "identity--c"]

/-- The same with the hosts first. -/
def hostsFirst : List Json :=
  [dated "identity" "identity--b" [("name", .str "b")],
    dated "identity" "identity--a" [("name", .str "a")],
    dated "identity" "identity--b" [("name", .str "b again")],
    uses "relationship--a" "identity--a" "identity--b",
    uses "relationship--b" "identity--a" "identity--c", dated "x-note" "x-note--a" []]

/-- The host that comes twice is told of at place 4 of the one and at place 2 of the other. -/
theorem importInto_shuffled_hostsFirst :
    ∃ (move : Nat → Nat) (s s' : Store) (summary : Summary), move.Injective ∧
      (validate { objects := linksFirst }).issues.map Issue.index = [4] ∧
      (validate { objects := hostsFirst }).issues.map Issue.index = [2] ∧
      importInto hostsStore hostsOptions (.value (bundleOf linksFirst)) false = (s, .ok summary) ∧
      (summary.nodesCreated, summary.edgesCreated, summary.skipped) = (2, 1, 1) ∧
      importInto hostsStore hostsOptions (.value (bundleOf hostsFirst)) false =
        (s', .ok (summary.renumbered move)) ∧
      s' = { s with log := s'.log } := by
  have hshuffled : Bundle.Shuffled { objects := linksFirst } { objects := hostsFirst } :=
    ⟨by decide +kernel, by decide +kernel⟩
  have hfirst : (importInto hostsStore hostsOptions (.value (bundleOf linksFirst))
      false).2.toOption.map (fun t => (t.nodesCreated, t.edgesCreated, t.skipped)) =
        some (2, 1, 1) := by
    decide +kernel
  obtain ⟨move, hmove, _, hsame⟩ := importInto_shuffled (read_bundleOf linksFirst)
    (read_bundleOf hostsFirst) hshuffled
  obtain ⟨hstore, houtcome⟩ := hsame hostsStore hostsOptions false
  cases hrun : importInto hostsStore hostsOptions (.value (bundleOf linksFirst)) false with
  | mk s outcome =>
    rw [hrun] at hfirst hstore houtcome
    obtain ⟨summary, hsome, hcounts⟩ := Option.map_eq_some_iff.mp hfirst
    obtain rfl : outcome = .ok summary := eq_ok_of_toOption hsome
    exact ⟨move, s, _, summary, hmove, by decide +kernel, by decide +kernel, rfl, hcounts,
      Prod.ext rfl houtcome, hstore⟩

end Example

end Stix

end GraphWorkbench
