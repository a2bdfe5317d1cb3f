import GraphWorkbench.Proofs.Outcome
import GraphWorkbench.Stix.Import
/-!
Entries of a bundle under other numbers. No step of an import does more with the place of an entry
than to report it, so what the steps make of renumbered entries is what they make of the entries,
renumbered.
-/
namespace GraphWorkbench.Stix

variable {p : Preset} {o : Options} {d : Document} {k : Known} {c : Candidate} {v : ValidObject}

/-! Reports and objects with the places of their entries moved. -/

def Issue.moved (f : Nat → Nat) (x : Issue) : Issue := { x with index := f x.index }

def Warning.moved (f : Nat → Nat) (w : Warning) : Warning := { w with index := f w.index }

def UnknownType.moved (f : Nat → Nat) (u : UnknownType) : UnknownType := { u with index := f u.index }

def ValidObject.moved (f : Nat → Nat) (v : ValidObject) : ValidObject := { v with index := f v.index }

def Item.moved (f : Nat → Nat) (item : Item) : Item := { item with index := f item.index }

def Outcome.moved (f : Nat → Nat) : Outcome → Outcome
  | .valid v => .valid (v.moved f)
  | .issue x => .issue (x.moved f)
  | .unknown u => .unknown (u.moved f)

def Candidate.moved (f : Nat → Nat) (c : Candidate) : Candidate :=
  { c with items := c.items.map (Item.moved f), issues := c.issues.map (Issue.moved f)
           warnings := c.warnings.map (Warning.moved f) }

def NodeStage.moved (f : Nat → Nat) (s : NodeStage) : NodeStage :=
  { s with candidate := s.candidate.moved f }

@[simp] theorem ValidObject.moved_kind (f : Nat → Nat) : (v.moved f).kind = v.kind := rfl

@[simp] theorem ValidObject.moved_id (f : Nat → Nat) : (v.moved f).id = v.id := rfl

@[simp] theorem ValidObject.moved_raw (f : Nat → Nat) : (v.moved f).raw = v.raw := rfl

/-! Validation. -/

/-- The ids of valid objects after an outcome. -/
def Outcome.joins (seen : List String) : Outcome → List String
  | .valid v => v.id :: seen
  | _ => seen

/-- What becomes of entries that stand at given places. -/
def outcomesAlong (seen : List String) : List (Json × Nat) → List Outcome
  | [] => []
  | (entry, index) :: rest =>
    let outcome := checkAfter seen index entry
    outcome :: outcomesAlong (outcome.joins seen) rest

section Validation

variable (f : Nat → Nat) (seen : List String)

theorem outcomesFrom_eq_along (index : Nat) (entries : List Json) :
    outcomesFrom seen index entries = outcomesAlong seen (entries.zipIdx index) := by
  induction entries generalizing seen index with
  | nil => rfl
  | cons entry rest ih =>
    rw [outcomesFrom, List.zipIdx_cons, outcomesAlong, ih]
    cases checkAfter seen index entry <;> rfl

theorem checkObject_moved (index : Nat) (kind : Kind) (record : List (String × Json)) :
    checkObject (f index) kind record = (checkObject index kind record).map (ValidObject.moved f) := by
  unfold checkObject
  extract_lets name read read'
  have hread : read () = (read' ()).map (ValidObject.moved f) := by
    simp only [read, read']
    cases readObject kind record with
    | error issues => rfl
    | ok fields =>
      simp only
      split <;> rfl
  cases idOf? record with
  | none => exact hread
  | some id =>
    simp only
    split
    · rfl
    · exact hread

theorem checkEntry_moved (index : Nat) (entry : Json) :
    checkEntry (f index) entry = (checkEntry index entry).moved f := by
  unfold checkEntry
  split
  next record =>
    simp only
    split
    · split
      · rfl
      · split
        · rfl
        · rw [checkObject_moved]
          cases checkObject index _ record <;> rfl
    · rfl
  next => rfl

theorem checkAfter_moved (index : Nat) (entry : Json) :
    checkAfter seen (f index) entry = (checkAfter seen index entry).moved f := by
  unfold checkAfter
  rw [checkEntry_moved]
  cases checkEntry index entry with
  | valid v =>
    change (if seen.contains v.id then _ else _) = Outcome.moved f (if seen.contains v.id then _ else _)
    split <;> rfl
  | _ => rfl

theorem Outcome.joins_moved (x : Outcome) : (x.moved f).joins seen = x.joins seen := by
  cases x <;> rfl

theorem outcomesAlong_moved (entries : List (Json × Nat)) :
    outcomesAlong seen (entries.map (Prod.map id f)) =
      (outcomesAlong seen entries).map (Outcome.moved f) := by
  induction entries generalizing seen with
  | nil => rfl
  | cons e rest ih =>
    obtain ⟨entry, index⟩ := e
    simp only [List.map_cons, Prod.map_apply, id_eq, outcomesAlong, checkAfter_moved, ih,
      Outcome.joins_moved]

end Validation

/-! Mapping. -/

section Mapping

variable (f : Nat → Nat)

theorem Candidate.moved_complain (c : Candidate) (v : ValidObject) (cause : IssueCause) :
    (c.complain v cause).moved f = (c.moved f).complain (v.moved f) cause := by
  simp [Candidate.moved, complain, Issue.moved, ValidObject.moved]

theorem Candidate.moved_warn (c : Candidate) (v : ValidObject) (cause : WarningCause) :
    (c.warn v cause).moved f = (c.moved f).warn (v.moved f) cause := by
  simp [Candidate.moved, warn, Warning.moved, ValidObject.moved]

theorem Candidate.moved_add (c : Candidate) (item : Item) :
    (c.add item).moved f = (c.moved f).add (item.moved f) := by
  simp [Candidate.moved, add]

theorem stageNode_moved (s : NodeStage) : stageNode p o d (s.moved f) (v.moved f) =
    (stageNode p o d s v).map (NodeStage.moved f) := by
  -- the object is counted under its kind, which does not move
  let c := s.candidate.count v.kind.word
  have hcount : (s.moved f).candidate.count v.kind.word = c.moved f := rfl
  unfold stageNode
  simp only [ValidObject.moved_kind, ValidObject.moved_id, hcount]
  cases o.accepts v.kind.word with
  | false => rfl
  | true =>
    cases nodeTypeFor? p o v.kind with
    | none => simp only [← Candidate.moved_complain]; rfl
    | some typeId =>
      cases d.nodes.has v.id with
      | true => simp only [← Candidate.moved_warn]; rfl
      | false =>
        have hnode : nodeOf o (v.moved f) typeId (s.moved f).slot = nodeOf o v typeId s.slot := rfl
        simp only [hnode]
        cases nodeOf o v typeId s.slot with
        | error e => rfl
        | ok node =>
          have hadd := Candidate.moved_add f c ⟨v.index, v.id, v.kind, .addNode node⟩
          exact congrArg (fun c => Except.ok (NodeStage.mk c (v.id :: s.staged) s.filtered (s.slot + 1)))
            hadd.symm

theorem resolve_moved (refs : List String) : resolve k (c.moved f) (v.moved f) refs =
    (resolve k c v refs).map (Candidate.moved f) id := by
  induction refs with
  | nil => rfl
  | cons ref rest ih =>
    rw [resolve, resolve, ih]
    split
    · rfl
    · split
      · exact Prod.ext (Candidate.moved_warn f c.skip v _).symm rfl
      · exact Prod.ext (Candidate.moved_complain f c v _).symm rfl

theorem addEdge_moved (e : Edge) :
    addEdge d (c.moved f) (v.moved f) e = (addEdge d c v e).moved f := by
  unfold addEdge
  split
  · exact (Candidate.moved_warn f c v _).symm
  · exact (Candidate.moved_add f c ⟨v.index, e.id, v.kind, .addEdge e⟩).symm

/-- What follows a look-up of references that are all known. -/
theorem resolved_moved (refs : List String) {step step' : Candidate → Candidate}
    (moves : ∀ c : Candidate, step' (c.moved f) = (step c).moved f) :
    (match resolve k (c.moved f) (v.moved f) refs with | (c, false) => c | (c, true) => step' c) =
      Candidate.moved f
        (match resolve k c v refs with | (c, false) => c | (c, true) => step c) := by
  rw [resolve_moved]
  obtain ⟨c, known⟩ := resolve k c v refs
  cases known with
  | false => rfl
  | true => exact moves c

theorem stageRelationship_moved : stageRelationship p o d k (c.moved f) (v.moved f) =
    (stageRelationship p o d k c v).moved f := by
  unfold stageRelationship
  simp only [ValidObject.moved_raw, ValidObject.moved_id]
  split
  next => exact (Candidate.moved_complain f c v _).symm
  next => exact resolved_moved f _ fun c => addEdge_moved f _

theorem stageSighting_moved : stageSighting p o d k (c.moved f) (v.moved f) =
    (stageSighting p o d k c v).moved f := by
  unfold stageSighting
  simp only [apply_ite (Candidate.moved f)]
  refine ite_congr rfl (fun _ => ?_) fun _ => ite_congr rfl (fun _ => ?_) fun _ => ?_
  · exact (Candidate.moved_complain f c v _).symm
  · exact (Candidate.moved_warn f c v _).symm
  · refine resolved_moved f _ fun c => ?_
    -- each place of the sighting asks for an edge
    simp only [ValidObject.moved_raw]
    generalize (textsAt v.raw "where_sighted_refs").zipIdx = places
    induction places generalizing c with
    | nil => rfl
    | cons place rest ih =>
      rw [List.foldl_cons, List.foldl_cons, addEdge_moved]
      exact ih _

theorem stageConnection_moved : stageConnection p o d k (c.moved f) (v.moved f) =
    (stageConnection p o d k c v).moved f := by
  have hcount : (c.moved f).count v.kind.word = (c.count v.kind.word).moved f := rfl
  unfold stageConnection
  simp only [ValidObject.moved_kind, hcount]
  split
  · rfl
  · split
    · exact stageRelationship_moved f
    · exact stageSighting_moved f

theorem stageNodes_moved (vs : List ValidObject) (s : NodeStage) :
    (vs.map (ValidObject.moved f)).foldlM (stageNode p o d) (s.moved f) =
      (vs.foldlM (stageNode p o d) s).map (NodeStage.moved f) := by
  induction vs generalizing s with
  | nil => rfl
  | cons v rest ih =>
    rw [List.map_cons, List.foldlM_cons, List.foldlM_cons, stageNode_moved]
    cases stageNode p o d s v with
    | error e => rfl
    | ok s' => exact ih s'

theorem stageConnections_moved (vs : List ValidObject) (c : Candidate) :
    (vs.map (ValidObject.moved f)).foldl (stageConnection p o d k) (c.moved f) =
      (vs.foldl (stageConnection p o d k) c).moved f := by
  induction vs generalizing c with
  | nil => rfl
  | cons v rest ih =>
    rw [List.map_cons, List.foldl_cons, List.foldl_cons, stageConnection_moved]
    exact ih _

theorem mapToGraph_moved (valid : List ValidObject) :
    mapToGraph p o d (valid.map (ValidObject.moved f)) =
      (mapToGraph p o d valid).map (Candidate.moved f) := by
  let things := valid.filter fun v => !v.kind.connects
  have hnodes : (things.map (ValidObject.moved f)).foldlM (stageNode p o d) { slot := d.nodes.size } =
      (things.foldlM (stageNode p o d) { slot := d.nodes.size }).map (NodeStage.moved f) :=
    stageNodes_moved f things { slot := d.nodes.size }
  unfold mapToGraph
  simp only [List.filter_map, Function.comp_def, ValidObject.moved_kind]
  rw [hnodes]
  cases things.foldlM (stageNode p o d) { slot := d.nodes.size } with
  | error e => rfl
  | ok s => exact congrArg Except.ok (stageConnections_moved f _ _)

end Mapping

/-! Staging. -/

/-- What does not look at places counts as many items. -/
theorem countP_moved (f : Nat → Nat) {counted : Item → Bool}
    (same : ∀ item, counted (item.moved f) = counted item) (items : List Item) :
    (items.map (Item.moved f)).countP counted = items.countP counted := by
  rw [List.countP_map]
  exact List.countP_congr fun item _ => by rw [Function.comp_apply, same]

theorem mutations_moved (f : Nat → Nat) (items : List Item) :
    (items.map (Item.moved f)).map Item.mutation = items.map Item.mutation := by
  rw [List.map_map]
  rfl

theorem stageItems_moved (f : Nat → Nat) (items : List Item) (draft : Draft) (c : Candidate) :
    stageItems p draft (c.moved f) (items.map (Item.moved f)) =
      (stageItems p draft c items).map (Prod.map (Candidate.moved f) (List.map (Item.moved f))) := by
  induction items generalizing draft c with
  | nil => rfl
  | cons item rest ih =>
    have hmutation : (item.moved f).mutation = item.mutation := rfl
    rw [List.map_cons, stageItems, stageItems, hmutation]
    split
    next draft' _ =>
      rw [ih]
      cases stageItems p draft' c rest <;> rfl
    next draft' r _ =>
      let issue : Issue :=
        { index := item.index, id := some item.id, type := some item.kind.word, cause := .rejected r }
      have hrefused : Candidate.moved f { c with issues := c.issues ++ [issue] } =
          { c.moved f with issues := (c.moved f).issues ++ [issue.moved f] } := by
        simp [Candidate.moved]
      have hrest := ih draft' { c with issues := c.issues ++ [issue] }
      rw [hrefused] at hrest
      exact hrest
    next => rfl

end GraphWorkbench.Stix
