import Mathlib.Data.List.Nodup
import GraphWorkbench.Proofs.Place
import GraphWorkbench.Proofs.Sorting
import GraphWorkbench.Proofs.Stix.Mapping
import GraphWorkbench.Proofs.Stix.Repeat
/-!
What an import accounts for. Each entry of a bundle has one outcome in validation, and from it one
share in what is created and reported. Nothing else is created or reported, and the counts of a
summary are the numbers of entries of each sort.
-/
namespace GraphWorkbench

open Outcome

namespace Effect

variable {p : Preset} {d d' : Document}

theorem entries_addNode {n : Node} (h : Effect p d (.addNode n) d') :
    d'.nodes.entries = d.nodes.entries ++ [(n.id, n)] ∧ d'.edges.entries = d.edges.entries := by
  cases h with
  | addNode fresh room checked => exact ⟨Table.entries_put_new fresh, rfl⟩

theorem entries_addEdge {e : Edge} (h : Effect p d (.addEdge e) d') :
    d'.nodes.entries = d.nodes.entries ∧ d'.edges.entries = d.edges.entries ++ [(e.id, e)] := by
  cases h with
  | addEdge authored fresh room checked => exact ⟨rfl, Table.entries_put_new fresh⟩

end Effect

namespace Stix

variable {p : Preset} {o : Options} {d : Document} {v : ValidObject} {c c' : Candidate}
  {items accepted : List Item} {i : Nat}

section Staging

/-- Staging sifts the items, and leaves all else of the candidate as it is. -/
theorem sifted_of_stageItems {draft : Draft} (h : stageItems p draft c items = .ok (c', accepted)) :
    ∃ issues, Sifted items accepted issues ∧ c' = { c with issues := c.issues ++ issues } := by
  induction items generalizing draft c accepted with
  | nil =>
    rw [stageItems, Except.ok.injEq, Prod.mk.injEq] at h
    obtain ⟨rfl, rfl⟩ := h
    exact ⟨[], .done, by simp⟩
  | cons item rest ih =>
    rw [stageItems] at h
    split at h
    next mid hstage =>
      cases hrest : stageItems p mid c rest with
      | error f => simp [hrest, Except.map] at h
      | ok result =>
        simp only [hrest, Except.map, Except.ok.injEq, Prod.mk.injEq] at h
        obtain ⟨rfl, rfl⟩ := h
        obtain ⟨issues, hsifted, hc⟩ := ih hrest
        exact ⟨issues, hsifted.keep, hc⟩
    next mid r hstage =>
      -- the issue of a refused item comes before those of the rest, as `Sifted` has it
      obtain ⟨issues, hsifted, hc⟩ := ih h
      let refused : Issue :=
        { index := item.index, id := some item.id, type := some item.kind.word
          cause := .rejected r }
      refine ⟨refused :: issues, hsifted.drop rfl, ?_⟩
      rw [hc, List.append_assoc, List.singleton_append]
    next => exact absurd h (by simp)

end Staging

/-! The entries of a bundle and their outcomes. -/

namespace Outcome

/-- The place of the entry that an outcome is about. -/
def index : Outcome → Nat
  | .valid v => v.index
  | .issue x => x.index
  | .unknown u => u.index

/-- What an outcome reports by itself. -/
def share : Outcome → Share
  | .valid _ => {}
  | .issue x => { issues := [x] }
  | .unknown u => { unknown := [u] }

def isIssue : Outcome → Bool
  | .issue _ => true
  | _ => false

def isUnknown : Outcome → Bool
  | .unknown _ => true
  | _ => false

/-- A valid object of a kind that the options leave out. -/
def isLeftOut (o : Options) : Outcome → Bool
  | .valid v => o.leavesOut v.kind
  | _ => false

/-- The outcome is about the entry at a place. What is valid there is that entry as it was read;
what is of an unknown type is an entry with a type that no kind has. -/
structure Concerns (x : Outcome) (i : Nat) (entry : Json) : Prop where
  index : x.index = i
  valid : ∀ v, x = .valid v → entry = .obj v.raw ∧ v.Read ∧
    Entries.get? "type" v.raw = some (.str v.kind.word) ∧ idOf? v.raw = some v.id
  unknown : ∀ u, x = .unknown u → ∃ record, entry = .obj record ∧
    Entries.get? "type" record = some (.str u.type) ∧ Kind.ofWord? u.type = none

end Outcome

section Validation

theorem checkObject_eq_ok {k : Kind} {record : List (String × Json)}
    (h : checkObject i k record = .ok v) :
    v.index = i ∧ v.raw = record ∧ v.Read ∧ idOf? record = some v.id := by
  unfold checkObject at h
  extract_lets name read at h
  -- what follows is the same with an id and without one
  have hchecked : read () = .ok v := by
    split at h
    · split at h
      · rw [throw_bind] at h
        exact absurd h (by simp)
      · exact h
    · exact h
  clear h
  simp only [read] at hchecked
  split at hchecked
  next => exact absurd hchecked (by simp [throw, throwThe, MonadExceptOf.throw])
  next fields hfields =>
    split at hchecked
    · rw [throw_bind] at hchecked
      exact absurd hchecked (by simp)
    · obtain rfl := Except.ok.inj hchecked
      let object : ValidObject := ⟨i, k, (idOf? record).getD "", fields, record⟩
      have hread : object.Read := hfields
      obtain ⟨id, hid⟩ := idOf?_of_read hread
      have hsome : idOf? record = some id := hid
      refine ⟨rfl, rfl, hread, ?_⟩
      rw [hsome, Option.getD_some]

theorem concerns_issue {x : Issue} {entry : Json} (h : x.index = i) :
    (Outcome.issue x).Concerns i entry :=
  ⟨h, fun _ hx => Outcome.noConfusion hx, fun _ hx => Outcome.noConfusion hx⟩

theorem concerns_checkEntry (i : Nat) (entry : Json) : (checkEntry i entry).Concerns i entry := by
  unfold checkEntry
  split
  next record =>
    split
    next type htype =>
      split
      · exact concerns_issue rfl
      · split
        next hunknown =>
          refine ⟨rfl, fun _ hx => Outcome.noConfusion hx, ?_⟩
          rintro u ⟨⟩
          exact ⟨record, rfl, htype, hunknown⟩
        next =>
          split
          next object hobject =>
            obtain ⟨hindex, hraw, hread, hid⟩ := checkObject_eq_ok hobject
            refine ⟨hindex, ?_, fun _ hx => Outcome.noConfusion hx⟩
            rintro v ⟨⟩
            rw [← hraw] at hid
            exact ⟨congrArg Json.obj hraw.symm, hread, type_of_read hread, hid⟩
          next => exact concerns_issue rfl
    next => exact concerns_issue rfl
  next => exact concerns_issue rfl

theorem concerns_checkAfter (seen : List String) (i : Nat) (entry : Json) :
    (checkAfter seen i entry).Concerns i entry := by
  have hentry := concerns_checkEntry i entry
  unfold checkAfter
  split
  next object hobject =>
    rw [hobject] at hentry
    split
    · exact concerns_issue rfl
    · exact hentry
  next => exact hentry

theorem exists_outcome (seen : List String) (i : Nat) {entries : List Json} {j : Nat} {entry : Json}
    (h : entries[j]? = some entry) :
    ∃ x, (outcomesFrom seen i entries)[j]? = some x ∧ x.Concerns (i + j) entry := by
  -- which ids were seen before changes the outcome, but not which entry it is about
  induction entries generalizing seen i j with
  | nil => simp at h
  | cons first rest ih =>
    cases j with
    | zero =>
      obtain rfl : first = entry := by simpa using h
      exact ⟨_, rfl, concerns_checkAfter seen i first⟩
    | succ j =>
      obtain ⟨x, hx, hconcerns⟩ := ih _ (i + 1) (by simpa using h)
      refine ⟨x, hx, ?_⟩
      rw [Nat.add_right_comm] at hconcerns
      exact hconcerns

theorem map_index_outcomesFrom (seen : List String) (i : Nat) (entries : List Json) :
    (outcomesFrom seen i entries).map Outcome.index = List.range' i entries.length := by
  induction entries generalizing seen i with
  | nil => rfl
  | cons first rest ih =>
    rw [outcomesFrom, List.map_cons, (concerns_checkAfter seen i first).index, ih]
    rfl

theorem nodup_index_outcomes (b : Bundle) : ((outcomes b).map Outcome.index).Nodup := by
  rw [outcomes, map_index_outcomesFrom]
  exact List.nodup_range'

theorem Outcome.only_of_eq_share {x : Outcome} {a : Share} (h : a = x.share) : a.Only x.index := by
  subst h
  cases x with
  | valid v => exact .nil
  | issue x => exact ⟨by simp [share], by simp [share, index], by simp [share], by simp [share]⟩
  | unknown u => exact ⟨by simp [share], by simp [share], by simp [share], by simp [share, index]⟩

/-- A report is put together from the outcomes. -/
theorem share_validate (b : Bundle) :
    ({ issues := (validate b).issues, unknown := (validate b).unknown } : Share) =
      .sum ((outcomes b).map Outcome.share) := by
  unfold validate
  simp only
  generalize outcomes b = all
  induction all with
  | nil => rfl
  | cons x rest ih =>
    rw [List.map_cons, Share.sum_cons, ← ih]
    cases x <;> rfl

theorem forall₂_share (xs : List Outcome) :
    List.Forall₂ (fun x a => a = Outcome.share x) xs (xs.map Outcome.share) :=
  List.forall₂_map_right_iff.mpr (List.forall₂_same.mpr fun _ _ => rfl)

theorem about_outcomes {b : Bundle} {x : Outcome} (hx : x ∈ outcomes b) :
    (Share.sum ((outcomes b).map Outcome.share)).about x.index = x.share := by
  have hone := forall₂_share (outcomes b)
  refine Share.about_sum ?_ hone (nodup_index_outcomes b) hx
  exact fun _ _ => Outcome.only_of_eq_share

theorem about_outcomes_of_notMem {b : Bundle} (hi : i ∉ (outcomes b).map Outcome.index) :
    (Share.sum ((outcomes b).map Outcome.share)).about i = {} := by
  have hone := forall₂_share (outcomes b)
  refine Share.about_sum_of_notMem ?_ hone hi
  exact fun _ _ => Outcome.only_of_eq_share

theorem mem_valid_iff {b : Bundle} : v ∈ (validate b).valid ↔ .valid v ∈ outcomes b := by
  unfold validate
  simp only [List.mem_filterMap]
  constructor
  · rintro ⟨x, hx, hv⟩
    cases x with
    | valid w => exact Option.some.inj hv ▸ hx
    | _ => exact absurd hv (by simp)
  · intro h
    exact ⟨_, h, rfl⟩

theorem nodup_index_valid (b : Bundle) : ((validate b).valid.map ValidObject.index).Nodup := by
  -- valid objects have the places of their outcomes, in the same order
  refine (nodup_index_outcomes b).sublist ?_
  unfold validate
  simp only
  generalize outcomes b = all
  induction all with
  | nil => exact .slnil
  | cons x rest ih =>
    cases x with
    | valid w => exact ih.cons_cons w.index
    | _ => exact ih.cons _

/-- The outcomes of each sort together are all of them. -/
theorem length_outcomes (b : Bundle) :
    (validate b).valid.length + (outcomes b).countP Outcome.isIssue +
      (validate b).unknown.length = (outcomes b).length := by
  unfold validate
  simp only
  generalize outcomes b = all
  induction all with
  | nil => rfl
  | cons x rest ih => cases x <;> simp [Outcome.isIssue, List.countP_cons] at ih ⊢ <;> omega

theorem length_unknown (b : Bundle) :
    (validate b).unknown.length = (outcomes b).countP Outcome.isUnknown := by
  unfold validate
  simp only
  rw [List.length_filterMap_eq_countP]
  refine List.countP_congr fun x _ => ?_
  cases x <;> simp [Outcome.isUnknown]

theorem countP_leavesOut (o : Options) (b : Bundle) :
    ((validate b).valid.countP fun v => o.leavesOut v.kind) =
      (outcomes b).countP (Outcome.isLeftOut o) := by
  unfold validate
  simp only
  rw [List.countP_filterMap]
  refine List.countP_congr fun x _ => ?_
  cases x <;> simp [Outcome.isLeftOut]

theorem length_eq_objects (b : Bundle) : (outcomes b).length = b.objects.length := by
  rw [← List.length_map Outcome.index, outcomes, map_index_outcomesFrom, List.length_range']

theorem read_of_mem_valid {b : Bundle} (h : v ∈ (validate b).valid) : v.Read := by
  -- a valid object is the outcome of the entry at its place, and what is valid was read there
  obtain ⟨j, hj⟩ := List.getElem?_of_mem (mem_valid_iff.mp h)
  have hlt : j < b.objects.length := by
    rw [← length_eq_objects]
    exact (List.getElem?_eq_some_iff.mp hj).1
  obtain ⟨x, hx, hconcerns⟩ := exists_outcome [] 0 (List.getElem?_eq_getElem hlt)
  obtain rfl : Outcome.valid v = x := Option.some.inj (hj.symm.trans hx)
  exact (hconcerns.valid v rfl).2.1

end Validation

section Summary

/-- Counting one after another of some keys adds their number to the total. -/
theorem total_count_unknown (unknown : List UnknownType) (t : Table Nat) :
    (unknown.foldl (fun (t : Table Nat) u =>
      t.put u.type ((t.get? u.type).getD 0 + 1)) t).total = t.total + unknown.length := by
  induction unknown generalizing t with
  | nil => rfl
  | cons u rest ih =>
    have hput : (t.put u.type ((t.get? u.type).getD 0 + 1)).total = t.total + 1 :=
      Entries.total_put_succ u.type t.entries
    rw [List.foldl_cons, ih, hput, List.length_cons]
    omega

/-- A table of the same entries in another order has the same total. -/
theorem total_ofEntries_of_perm {t : Table Nat} {entries : List (String × Nat)}
    (h : entries.Perm t.entries) : (Table.ofEntries entries).total = t.total := by
  unfold Table.total
  rw [Table.entries_ofEntries_of_perm h]
  exact Entries.total_eq_of_perm h

/-- What a summary reports, with what was created. -/
def Summary.share (summary : Summary) (created : List Item) : Share :=
  { created, issues := summary.issues, warnings := summary.warnings, unknown := summary.unknown }

end Summary

/-! What is created comes behind what there was. -/

/-- The entry of the node that an item adds. -/
def Item.node? (item : Item) : Option (String × Node) :=
  match item.mutation with
  | .addNode n => some (n.id, n)
  | _ => none

def Item.edge? (item : Item) : Option (String × Edge) :=
  match item.mutation with
  | .addEdge e => some (e.id, e)
  | _ => none

section Creation

theorem perform_adds {draft mid : Draft} {item : Item} (adds : item.Adds)
    (h : Draft.perform p draft item.mutation = (mid, none)) :
    mid.working.nodes.entries = draft.working.nodes.entries ++ item.node?.toList ∧
      mid.working.edges.entries = draft.working.edges.entries ++ item.edge?.toList := by
  have heffect := (Draft.accepted_of_perform adds.single h).effect
  rcases adds with ⟨n, hm⟩ | ⟨e, hm⟩
  · rw [hm] at heffect
    obtain ⟨hnodes, hedges⟩ := heffect.entries_addNode
    rw [hnodes, hedges]
    simp [Item.node?, Item.edge?, hm]
  · rw [hm] at heffect
    obtain ⟨hnodes, hedges⟩ := heffect.entries_addEdge
    rw [hnodes, hedges]
    simp [Item.node?, Item.edge?, hm]

theorem Staged.adds {draft draft' : Draft} (h : Staged p draft items accepted draft')
    (adds : ∀ item ∈ items, item.Adds) :
    draft'.working.nodes.entries = draft.working.nodes.entries ++ accepted.filterMap Item.node? ∧
      draft'.working.edges.entries =
        draft.working.edges.entries ++ accepted.filterMap Item.edge? := by
  induction h with
  | done => simp
  | @accept _ _ _ item _ _ performed _ ih =>
    obtain ⟨hitem, hrest⟩ := List.forall_mem_cons.mp adds
    obtain ⟨hnodes, hedges⟩ := perform_adds hitem performed
    obtain ⟨hnodes', hedges'⟩ := ih hrest
    rw [hnodes', hnodes, hedges', hedges, List.append_assoc, List.append_assoc]
    constructor
    · cases hnode : item.node? <;> simp [hnode]
    · cases hedge : item.edge? <;> simp [hedge]
  | refuse _ _ ih => exact ih (List.forall_mem_cons.mp adds).2

end Creation

/-- What an import of a bundle created and reported accounts for each entry. Each has an outcome in
validation, and what is about it is the share of that outcome; there is nothing else. All entries
but those with issues in validation are counted by type; those of unknown types and those left out
by the options are skipped, and so are connections to objects left out. -/
structure Accounted (o : Options) (b : Bundle) (created : List Item) (summary : Summary) :
    Prop where
  entries : ∀ i entry, b.objects[i]? = some entry → ∃ x, (outcomes b)[i]? = some x ∧
    x.Concerns i entry ∧ EntryShare o x ((summary.share created).about i)
  others : ∀ i, b.objects.length ≤ i → (summary.share created).about i = {}
  read : summary.objectsRead = b.objects.length
  byType : summary.byType.total + (outcomes b).countP Outcome.isIssue = summary.objectsRead
  skipped : summary.skipped = (outcomes b).countP Outcome.isUnknown +
    (outcomes b).countP (Outcome.isLeftOut o) + summary.warnings.countP Warning.isFiltered

section Run

variable {b : Bundle} {order : List ValidObject} {issues : List Issue}

/-- What a summary tells of a place is what validation told of it, and then what mapping planned for
it after it was sifted. -/
theorem about_summarize (i : Nat) :
    let summary := summarize b (validate b) { c with issues := c.issues ++ issues } accepted
    (summary.share accepted).about i =
      (Share.sum ((outcomes b).map Outcome.share)).about i ++
        (c.share.about i).sifted (accepted.filter (·.index = i)) (issues.filter (·.index = i)) := by
  intro summary
  rw [← share_validate]
  ext1
  · rfl
  · change ((_ ++ (c.issues ++ issues)).mergeSort _).filter _ = _
    rw [filter_mergeSort_key Issue.index, List.filter_append, List.filter_append]
    rfl
  · rfl
  · exact (List.append_nil _).symm

theorem objectShare_sifted (hdistinct : (order.map ValidObject.index).Nodup)
    (htaken : Candidate.TakesAll o order {} c) (hs : Sifted c.items accepted issues)
    (hv : v ∈ order) :
    ObjectShare o v ((c.share.about v.index).sifted (accepted.filter (·.index = v.index))
      (issues.filter (·.index = v.index))) := by
  obtain ⟨shares, hplanned, hgoes⟩ := htaken
  -- the candidate was empty at the start, so its share is that of the objects
  have hshare : c.share = .sum shares := hgoes.share
  have hown : Planned o v (c.share.about v.index) := by
    rw [hshare]
    exact Share.about_sum (fun _ _ h => h.share.only) hplanned hdistinct hv
  exact hown.share.sifted hown.pure (hs.filter v.index)

theorem sifted_of_notMem (htaken : Candidate.TakesAll o order {} c)
    (hs : Sifted c.items accepted issues) (hi : i ∉ order.map ValidObject.index) :
    (c.share.about i).sifted (accepted.filter (·.index = i)) (issues.filter (·.index = i)) =
      {} := by
  obtain ⟨shares, hplanned, hgoes⟩ := htaken
  have hshare : c.share = .sum shares := hgoes.share
  have hnone : c.share.about i = {} := by
    rw [hshare]
    exact Share.about_sum_of_notMem (fun _ _ h => h.share.only) hplanned hi
  rw [Share.sifted_of_nil (congrArg Share.created hnone) (hs.filter i), hnone]

/-- A mapping that took in all valid objects, and was sifted, accounts for the bundle. -/
theorem accounted_of_takesAll (hperm : order.Perm (validate b).valid)
    (htaken : Candidate.TakesAll o order {} c) (hs : Sifted c.items accepted issues) :
    Accounted o b accepted
      (summarize b (validate b) { c with issues := c.issues ++ issues } accepted) := by
  -- things are taken in before connections, but each valid object once
  have hindices := hperm.map ValidObject.index
  have hdistinct : (order.map ValidObject.index).Nodup :=
    hindices.nodup_iff.mpr (nodup_index_valid b)
  have hcounts := length_outcomes b
  rw [length_eq_objects, length_unknown] at hcounts
  refine ⟨?entries, ?others, rfl, ?byType, ?skipped⟩
  case entries =>
    intro i entry hentry
    obtain ⟨x, hx, hconcerns⟩ := exists_outcome [] 0 hentry
    rw [Nat.zero_add] at hconcerns
    have hmem : x ∈ outcomes b := List.mem_of_getElem? hx
    obtain rfl := hconcerns.index
    refine ⟨x, hx, hconcerns, ?_⟩
    rw [about_summarize, about_outcomes hmem]
    -- a place is that of a valid object only where the outcome is this object
    have hother : (∀ v, x ≠ .valid v) → x.index ∉ order.map ValidObject.index := by
      intro hne hin
      obtain ⟨v, hv, hindex⟩ := List.mem_map.mp hin
      have hvalid : .valid v ∈ outcomes b := mem_valid_iff.mp (hperm.mem_iff.mp hv)
      exact hne v (List.inj_on_of_nodup_map (nodup_index_outcomes b) hmem hvalid hindex.symm)
    cases x with
    | valid v =>
      have hv : v ∈ order := hperm.mem_iff.mpr (mem_valid_iff.mpr hmem)
      exact objectShare_sifted hdistinct htaken hs hv
    | issue x =>
      rw [sifted_of_notMem htaken hs (hother fun _ hx => Outcome.noConfusion hx),
        Share.append_nil]
      rfl
    | unknown u =>
      rw [sifted_of_notMem htaken hs (hother fun _ hx => Outcome.noConfusion hx),
        Share.append_nil]
      rfl
  case others =>
    intro i hi
    -- outcomes have the places of entries, and objects those of outcomes
    have hout : i ∉ (outcomes b).map Outcome.index := by
      rw [outcomes, map_index_outcomesFrom, List.mem_range'_1]
      omega
    have hobject : i ∉ order.map ValidObject.index := by
      intro hin
      obtain ⟨v, hv, rfl⟩ := List.mem_map.mp hin
      exact hout (List.mem_map_of_mem (mem_valid_iff.mp (hperm.mem_iff.mp hv)))
    rw [about_summarize, about_outcomes_of_notMem hout, sifted_of_notMem htaken hs hobject]
    rfl
  all_goals obtain ⟨shares, _, hgoes⟩ := htaken
  case byType =>
    -- mapping counts the valid objects, and the summary adds the unknown types
    have hcounted : c.byType.total = 0 + order.length := hgoes.counted
    change (Table.ofEntries _).total + _ = b.objects.length
    rw [total_ofEntries_of_perm (List.mergeSort_perm _ _), total_count_unknown, hcounted,
      hperm.length_eq, length_unknown]
    omega
  case skipped =>
    -- what mapping skips are objects left out and connections to them
    have hskipped := hgoes.skipped
    have hwarnings : c.warnings = (Share.sum shares).warnings :=
      congrArg Share.warnings hgoes.share
    rw [← hwarnings, hperm.countP_eq, countP_leavesOut] at hskipped
    change c.skipped + (validate b).unknown.length = _ + _ + c.warnings.countP Warning.isFiltered
    rw [hskipped, length_unknown]
    change 0 + _ + _ + _ = _
    omega

/-- An import that returns created, behind what the document had, what it accounts for. -/
theorem importInto_accounts {s s' : Store} {origin : Bundle.Origin} {cancelled : Bool}
    {summary : Summary} (h : importInto s o origin cancelled = (s', .ok summary)) :
    ∃ b created, Bundle.read origin = .ok (.ok b) ∧
      s'.document.nodes.entries = s.document.nodes.entries ++ created.filterMap Item.node? ∧
      s'.document.edges.entries = s.document.edges.entries ++ created.filterMap Item.edge? ∧
      Accounted o b created summary := by
  cases hprepare : prepare s o origin with
  | error e =>
    rw [importInto_of_error hprepare] at h
    exact absurd (congrArg Prod.snd h) (by simp)
  | ok prepared =>
    obtain ⟨b, report, c, accepted⟩ := prepared
    cases cancelled with
    | true =>
      rw [importInto_of_cancelled hprepare] at h
      exact absurd (congrArg Prod.snd h) (by simp)
    | false =>
      obtain ⟨hread, rfl, mapped, hmapped, hstage⟩ := prepare_eq_ok_iff.mp hprepare
      have hadds := mapToGraph_adds hmapped
      rw [importInto_of_commit hprepare (commit_accepted hadds hstage).1] at h
      obtain ⟨rfl, hsummary⟩ := Prod.mk.inj h
      obtain rfl := Except.ok.inj hsummary
      obtain ⟨draft', hstaged⟩ := staged_of_stageItems hstage
      obtain ⟨hnodes, hedges⟩ := hstaged.adds hadds
      -- telling of the import leaves the document as the commit made it
      have hdocument : (announce (commit s accepted).1
          (summarize b (validate b) c accepted)).document = draft'.working :=
        hstaged.commit_document.1
      obtain ⟨issues, hsifted, rfl⟩ := sifted_of_stageItems hstage
      obtain ⟨order, hperm, htaken⟩ := mapToGraph_takesAll (fun _ => read_of_mem_valid) hmapped
      refine ⟨b, accepted, hread, ?_, ?_, accounted_of_takesAll hperm htaken hsifted⟩
      · rw [hdocument, hnodes]
        rfl
      · rw [hdocument, hedges]
        rfl

end Run

section Example

def seenOptions : Options := { hostsOptions with sightingRelationship := "link" }

/-- Three hosts and a link between two of them; the third one was seen at both, of which one link is
to be too many. Then an object that is not wanted and a link to it, a type that is not known, and no
object. -/
def seenBundle : Json :=
  .obj [("objects", .arr [dated "identity" "identity--a" [("name", .str "a")],
    dated "identity" "identity--b" [("name", .str "b")],
    dated "identity" "identity--c" [("name", .str "c")],
    uses "relationship--a" "identity--a" "identity--b",
    dated "sighting" "sighting--a" [("sighting_of_ref", .str "identity--c"),
      ("where_sighted_refs", .arr [.str "identity--a", .str "identity--b"])],
    dated "location" "location--a" [], uses "relationship--b" "identity--b" "location--a",
    dated "x-host" "x-host--a" [], .null])]

theorem importInto_accounts_seenBundle :
    ∃ s' summary, importInto hostsStore seenOptions (.value seenBundle) false =
        (s', .ok summary) ∧
      (summary.objectsRead, summary.nodesCreated, summary.edgesCreated, summary.skipped) =
        (9, 3, 2, 3) ∧
      ∃ b created, Bundle.read (.value seenBundle) = .ok (.ok b) ∧
        s'.document.nodes.entries = created.filterMap Item.node? ∧
        s'.document.edges.entries = created.filterMap Item.edge? ∧
        Accounted seenOptions b created summary := by
  have hcounts : (importInto hostsStore seenOptions (.value seenBundle) false).2.toOption.map
      (fun t => (t.objectsRead, t.nodesCreated, t.edgesCreated, t.skipped)) =
        some (9, 3, 2, 3) := by
    decide +kernel
  cases hrun : importInto hostsStore seenOptions (.value seenBundle) false with
  | mk s' outcome =>
    rw [hrun] at hcounts
    obtain ⟨summary, hsome, hcounted⟩ := Option.map_eq_some_iff.mp hcounts
    obtain rfl : outcome = .ok summary := eq_ok_of_toOption hsome
    exact ⟨s', summary, rfl, hcounted, importInto_accounts hrun⟩

end Example

end Stix

end GraphWorkbench
