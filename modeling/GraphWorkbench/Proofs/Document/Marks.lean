import GraphWorkbench.Proofs.Document.Recording
/-!
Recording by hand. Elements are put into a draft, replaced and taken out under any keys, and now and
then the draft is taken back to a mark. What is on record leads from the document at the start to the
tables of the draft and back again, order included, and a mark that the draft has not been taken
behind brings back the draft as it was when the mark was set.
-/
namespace GraphWorkbench

/-- A change that is asked of a draft. An element may stand under any key. -/
inductive Edit where
  | insertNode (key : String) (n : Node)
  | insertEdge (key : String) (e : Edge)
  | replaceNode (key : String) (n : Node)
  | replaceEdge (key : String) (e : Edge)
  | deleteNode (key : String)
  | deleteEdge (key : String)

namespace Edit

def record (d : Draft) : Edit → Except Fault Draft
  | .insertNode key n => d.insertNode key n
  | .insertEdge key e => d.insertEdge key e
  | .replaceNode key n => d.replaceNode key n
  | .replaceEdge key e => d.replaceEdge key e
  | .deleteNode key => d.deleteNode key
  | .deleteEdge key => d.deleteEdge key

/-- Insertions ask for an absent key, replacements and deletions for a present one. -/
def fits (d : Document) : Edit → Bool
  | .insertNode key _ => !d.nodes.has key
  | .insertEdge key _ => !d.edges.has key
  | .replaceNode key _ | .deleteNode key => d.nodes.has key
  | .replaceEdge key _ | .deleteEdge key => d.edges.has key

/-- An edit that fits is made, as one change. -/
theorem record_of_fits {d : Draft} {e : Edit} (h : e.fits d.working = true) :
    ∃ c d', e.record d = .ok d' ∧ Draft.Extends d [c] d' := by
  cases e with
  | insertNode key n =>
    have fresh : d.working.nodes.has key = false := by simpa [fits] using h
    exact ⟨_, _, Draft.insertNode_eq fresh, .push (.node (Change.leads_put_new fresh))⟩
  | insertEdge key e =>
    have fresh : d.working.edges.has key = false := by simpa [fits] using h
    exact ⟨_, _, Draft.insertEdge_eq fresh, .push (.edge (Change.leads_put_new fresh))⟩
  | replaceNode key n =>
    obtain ⟨old, hold⟩ := Table.has_iff_exists.mp h
    obtain ⟨before, after, hat⟩ := Table.exists_at hold
    exact ⟨_, _, Draft.replaceNode_at hat, .push (.node (Change.leads_put_at hat))⟩
  | replaceEdge key e =>
    obtain ⟨old, hold⟩ := Table.has_iff_exists.mp h
    obtain ⟨before, after, hat⟩ := Table.exists_at hold
    exact ⟨_, _, Draft.replaceEdge_at hat, .push (.edge (Change.leads_put_at hat))⟩
  | deleteNode key =>
    obtain ⟨old, hold⟩ := Table.has_iff_exists.mp h
    obtain ⟨before, after, hat⟩ := Table.exists_at hold
    exact ⟨_, _, Draft.deleteNode_at hat, .push (.node (Change.leads_erase_at hat))⟩
  | deleteEdge key =>
    obtain ⟨old, hold⟩ := Table.has_iff_exists.mp h
    obtain ⟨before, after, hat⟩ := Table.exists_at hold
    exact ⟨_, _, Draft.deleteEdge_at hat, .push (.edge (Change.leads_erase_at hat))⟩

end Edit

/-- A trail can be cut at any place. -/
theorem Trail.split {d d' : Document} {p q : Patch} (h : Trail d (p ++ q) d') :
    ∃ mid, Trail d p mid ∧ Trail mid q d' := by
  induction p generalizing d with
  | nil => exact ⟨d, .nil d, h⟩
  | cons c rest ih =>
    cases h with
    | @cons _ next _ _ _ head tail =>
      obtain ⟨mid, hrest, hq⟩ := ih tail
      exact ⟨mid, .cons head hrest, hq⟩

namespace Draft

/-- What is done to a draft: an edit, or taking it back to a mark. -/
inductive Step where
  | edit (e : Edit)
  | rollback (mark : Nat)

def take (d : Draft) : Step → Except Fault Draft
  | .edit e => e.record d
  | .rollback mark => match d.rollback mark with
    | (d', none) => .ok d'
    | (_, some f) => .error f

/-- Takes steps one after the other, as long as there is no fault. -/
def follow (d : Draft) (steps : List Step) : Except Fault Draft := steps.foldlM take d

def Step.fits (d : Draft) : Step → Bool
  | .edit e => e.fits d.working
  | .rollback _ => true

/-- Whether each edit fits the draft on which it is made. -/
def admits (d : Draft) : List Step → Bool
  | [] => true
  | step :: rest => step.fits d && match d.take step with
    | .ok d' => d'.admits rest
    | .error _ => true

variable {base d d' : Draft} {p : Patch} {steps before after : List Step}

theorem follow_cons {step : Step} (h : d.take step = .ok d') :
    d.follow (step :: steps) = d'.follow steps := by
  calc d.follow (step :: steps) = (d.take step >>= fun d => d.follow steps) := List.foldlM_cons
    _ = d'.follow steps := by rw [h]; rfl

theorem follow_append (h : d.follow before = .ok d') :
    d.follow (before ++ after) = d'.follow after := by
  calc d.follow (before ++ after) = (d.follow before >>= fun d => d.follow after) :=
        List.foldlM_append
    _ = d'.follow after := by rw [h]; rfl

theorem admits_cons_iff {step : Step} (h : d.take step = .ok d') :
    d.admits (step :: steps) = true ↔ step.fits d = true ∧ d'.admits steps = true := by
  rw [admits, h, Bool.and_eq_true]

theorem admits_of_append (h : d.admits (before ++ after) = true) : d.admits before = true := by
  induction before generalizing d with
  | nil => rfl
  | cons step rest ih =>
    rw [List.cons_append, admits, Bool.and_eq_true] at h
    rw [admits, Bool.and_eq_true]
    refine ⟨h.1, ?_⟩
    cases htake : d.take step with
    | ok mid => exact ih (by simpa [htake] using h.2)
    | error f => rfl

theorem admits_append_iff (h : d.follow before = .ok d') :
    d.admits (before ++ after) = true ↔ d.admits before = true ∧ d'.admits after = true := by
  induction before generalizing d with
  | nil =>
    obtain rfl : d = d' := Except.ok.inj h
    simp [admits]
  | cons step rest ih =>
    obtain ⟨mid, hmid, hrest⟩ := Outcome.bind_eq_ok.mp (List.foldlM_cons.symm.trans h)
    rw [List.cons_append, admits_cons_iff hmid, admits_cons_iff hmid, ih hrest, and_assoc]

/-- What goes on from a mark and is taken back, though not behind it, still goes on from it. -/
theorem Extends.rollback_within {mark : Nat} (h : Extends base p d) (within : base.mark ≤ mark) :
    ∃ q d', d.rollback mark = (d', none) ∧ Extends base q d' := by
  -- the changes above the mark are the last ones of those since the base
  let count := d.log.length - mark
  let kept := p.take (p.length - count)
  let undone := p.drop (p.length - count)
  have hsplit : p = kept ++ undone := (List.take_append_drop _ p).symm
  have hlength : d.log.length = p.length + base.mark := by
    rw [h.log, List.length_append, List.length_reverse]
    rfl
  have hcount : undone.length = count := by
    rw [List.length_drop]
    omega
  obtain ⟨working, hkept, hundone⟩ := Trail.split (hsplit ▸ h.trail)
  let d' : Draft := { d with working, log := kept.reverse ++ base.log }
  have hd' : Extends base kept d' := ⟨h.base, rfl, hkept⟩
  have hback : Extends d' undone d := by
    refine ⟨rfl, ?_, hundone⟩
    calc d.log = p.reverse ++ base.log := h.log
      _ = undone.reverse ++ (kept.reverse ++ base.log) := by
        rw [hsplit, List.reverse_append, List.append_assoc]
  have hmark : d.log.length - d'.mark = d.log.length - mark := by
    have hlog : d.log.length = undone.length + d'.mark := by
      rw [hback.log, List.length_append, List.length_reverse]
      rfl
    omega
  have hsame : d.rollback mark = d.rollback d'.mark := by simp only [rollback, hmark]
  exact ⟨kept, d', hsame.trans hback.rollback_eq, hd'⟩

/-- A step is taken without a fault, and what goes on from a draft still does after it. -/
theorem Extends.take {step : Step} (h : Extends base p d) (fits : step.fits d = true)
    (within : ∀ mark, step = .rollback mark → base.mark ≤ mark) :
    ∃ q d', d.take step = .ok d' ∧ Extends base q d' := by
  cases step with
  | edit e =>
    obtain ⟨c, d', hd', hext⟩ := Edit.record_of_fits fits
    exact ⟨p ++ [c], d', hd', h.trans hext⟩
  | rollback mark =>
    obtain ⟨q, d', hd', hext⟩ := h.rollback_within (within mark rfl)
    refine ⟨q, d', ?_, hext⟩
    rw [Draft.take, hd']

/-- Steps that never go back behind a draft lead to one that goes on from it. -/
theorem Extends.follow (h : Extends base p d) (admitted : d.admits steps = true)
    (within : ∀ mark, .rollback mark ∈ steps → base.mark ≤ mark) :
    ∃ q d', d.follow steps = .ok d' ∧ Extends base q d' := by
  induction steps generalizing d p with
  | nil => exact ⟨p, d, rfl, h⟩
  | cons step rest ih =>
    have hfits : step.fits d = true := by
      rw [admits, Bool.and_eq_true] at admitted
      exact admitted.1
    have hhead : ∀ mark, step = .rollback mark → base.mark ≤ mark := by
      rintro mark rfl
      exact within mark List.mem_cons_self
    have hrest : ∀ mark, .rollback mark ∈ rest → base.mark ≤ mark := by
      intro mark hmark
      exact within mark (List.mem_cons_of_mem _ hmark)
    obtain ⟨q, mid, hmid, hext⟩ := h.take hfits hhead
    obtain ⟨r, d', hd', hr⟩ := ih hext ((admits_cons_iff hmid).mp admitted).2 hrest
    exact ⟨r, d', (follow_cons hmid).trans hd', hr⟩

/-- Whatever is recorded, the patch leads from the document at the start to the draft and its inverse
back, order included. A mark at which the steps can be cut gives back the draft of that moment,
tables and log alike, unless a later step went back behind it, and from there recording goes on as
if what came after the mark had never been. -/
theorem recording_reversible {doc : Document} (admitted : (start doc).admits steps = true) :
    ∃ d, (start doc).follow steps = .ok d ∧
      d.result = d.working ∧
      d.patch.apply doc = .ok d.result ∧
      d.patch.inverse.apply d.result = .ok doc ∧
      ∀ before after, steps = before ++ after →
        ∃ mid, (start doc).follow before = .ok mid ∧
          ((∀ mark, .rollback mark ∈ after → mid.mark ≤ mark) →
            d.rollback mid.mark = (mid, none) ∧
            ∀ more, mid.admits more = true →
              (start doc).admits (steps ++ .rollback mid.mark :: more) = true ∧
              (start doc).follow (steps ++ .rollback mid.mark :: more) = mid.follow more) := by
  have hstart : ∀ mark, (start doc).mark ≤ mark := Nat.zero_le
  obtain ⟨p, d, hd, hext⟩ := (Extends.refl (start doc)).follow admitted fun mark _ => hstart mark
  have hrec : d.Recorded := (recorded_start doc).extends hext
  have htrail : Trail doc d.patch d.working := by
    have hbase : d.base = doc := hext.base
    rwa [Recorded, hbase] at hrec
  refine ⟨d, hd, hrec.result_eq, ?_, ?_, ?_⟩
  · rw [hrec.result_eq]
    exact htrail.apply_eq
  · rw [hrec.result_eq]
    exact htrail.inverse.apply_eq
  · rintro before after rfl
    have hbefore : (start doc).admits before = true := admits_of_append admitted
    obtain ⟨q, mid, hmid, hq⟩ :=
      (Extends.refl (start doc)).follow hbefore fun mark _ => hstart mark
    refine ⟨mid, hmid, ?_⟩
    intro within
    have hafter : mid.admits after = true := ((admits_append_iff hmid).mp admitted).2
    -- the steps after the mark go on from the draft at the mark, so they end at the same draft
    obtain ⟨r, d', hd', hr⟩ := (Extends.refl mid).follow hafter within
    obtain rfl : d = d' := by
      rw [follow_append hmid, hd'] at hd
      exact (Except.ok.inj hd).symm
    have hback : d.rollback mid.mark = (mid, none) := hr.rollback_eq
    have htake : d.take (.rollback mid.mark) = .ok mid := by rw [Draft.take, hback]
    refine ⟨hback, ?_⟩
    intro more hmore
    rw [admits_append_iff hd, admits_cons_iff htake, follow_append hd, follow_cons htake]
    exact ⟨⟨admitted, rfl, hmore⟩, rfl⟩

/-- A node is taken out and comes back last, under a key that is not its id. The mark that is set then
outlives two rollbacks, and the steps after it change both tables once more. -/
theorem recording_reversible_detours :
    let node (id : String) (typeId : String) : Node := { id, typeId }
    let link : Edge := { id := "e", typeId := "link", source := "a", target := "b" }
    let doc : Document :=
      { metadata := { presetId := "net", presetVersion := "2.0.0" }
        nodes := .ofEntries [("a", node "a" "host"), ("b", node "b" "host")]
        edges := .ofEntries [("e", link)] }
    let before : List Step :=
      [.edit (.deleteNode "a"), .edit (.insertNode "a" (node "c" "cloud")),
        .edit (.deleteEdge "e"), .rollback 2]
    let after : List Step :=
      [.edit (.replaceNode "b" (node "b" "cloud")), .edit (.insertEdge "f" link), .rollback 2,
        .edit (.deleteNode "b"), .edit (.replaceEdge "e" { link with source := "b" })]
    (start doc).admits (before ++ after) = true ∧
      ∃ d mid, (start doc).follow (before ++ after) = .ok d ∧
        (start doc).follow before = .ok mid ∧
        d.patch.apply doc = .ok d.result ∧
        d.patch.inverse.apply d.result = .ok doc ∧
        d.rollback mid.mark = (mid, none) ∧
        d.working.nodes.keys = ["a"] ∧ mid.working.nodes.keys = ["b", "a"] := by
  intro node link doc before after
  have admitted : (start doc).admits (before ++ after) = true := by decide
  obtain ⟨d, hd, -, hforth, hback, hmarks⟩ := recording_reversible admitted
  obtain ⟨mid, hmid, hrollback⟩ := hmarks before after rfl
  have hmark : mid.mark = 2 := by
    have h : ((start doc).follow before).toOption.map mark = some 2 := by decide
    rw [hmid] at h
    exact Option.some.inj h
  have within : ∀ mark, .rollback mark ∈ after → mid.mark ≤ mark := by
    intro mark hmem
    have hlater : mark = 2 := by simpa [after] using hmem
    omega
  obtain ⟨hrestored, -⟩ := hrollback within
  refine ⟨admitted, d, mid, hd, hmid, hforth, hback, hrestored, ?_, ?_⟩
  · have h : ((start doc).follow (before ++ after)).toOption.map (·.working.nodes.keys) =
        some ["a"] := by decide
    rw [hd] at h
    exact Option.some.inj h
  · have h : ((start doc).follow before).toOption.map (·.working.nodes.keys) =
        some ["b", "a"] := by decide
    rw [hmid] at h
    exact Option.some.inj h

end Draft

end GraphWorkbench
