import GraphWorkbench.Library.Topology
import GraphWorkbench.Proofs.Document.Effect
/-!
Staging is atomic and flat. A refused mutation leaves the draft as it was, at whatever depth of
whatever batch the refusal came; and a batch is staged exactly as the single mutations in it are
staged one after the other.
-/
namespace GraphWorkbench

namespace Mutation

/-- Mutations by the depth of their batches. -/
@[elab_as_elim] theorem induct {motive : Mutation → Prop}
    (single : ∀ m, m.isBatch = false → motive m)
    (batch : ∀ label steps, (∀ m ∈ steps, motive m) → motive (.batch label steps)) :
    ∀ m, motive m
  | .batch label steps => batch label steps fun m _ => induct single batch m
  | .addNode _ | .updateNode .. | .removeNode _ | .addEdge _ | .updateEdge .. | .removeEdge _ =>
    single _ rfl

mutual
/-- The mutations in a mutation that are no batches, in the order in which they are carried out. -/
def leaves : Mutation → List Mutation
  | .batch _ steps => leavesOf steps
  | m => [m]
def leavesOf : List Mutation → List Mutation
  | [] => []
  | m :: rest => m.leaves ++ leavesOf rest
end

theorem leaves_of_single {m : Mutation} (single : m.isBatch = false) : m.leaves = [m] := by
  cases m with
  | batch label steps => simp [isBatch] at single
  | _ => rfl

theorem mem_leavesOf {leaf : Mutation} {steps : List Mutation} :
    leaf ∈ leavesOf steps ↔ ∃ m ∈ steps, leaf ∈ m.leaves := by
  induction steps with
  | nil => simp [leavesOf]
  | cons m rest ih => simp [leavesOf, ih]

theorem single_of_mem_leaves (m : Mutation) : ∀ leaf ∈ m.leaves, leaf.isBatch = false := by
  induction m using induct with
  | single m hm =>
    intro leaf h
    rw [leaves_of_single hm, List.mem_singleton] at h
    rwa [h]
  | batch label steps ih =>
    intro leaf h
    obtain ⟨m, hm, hleaf⟩ := mem_leavesOf.mp h
    exact ih m hm leaf hleaf

end Mutation

namespace Draft

variable {p : Preset} {d d' : Draft} {m : Mutation} {steps rest : List Mutation}

/-! A batch and its leaves. -/

theorem performAll_append_of_ok (h : performAll p d steps = (d', none)) :
    performAll p d (steps ++ rest) = performAll p d' rest := by
  induction steps generalizing d with
  | nil =>
    simp only [performAll, Prod.mk.injEq, and_true] at h
    rw [h, List.nil_append]
  | cons m steps ih =>
    rw [List.cons_append, performAll]
    rw [performAll] at h
    split at h
    next mid hm => exact ih h
    next => simp at h

theorem performAll_append_of_stop {s : Stop} (h : performAll p d steps = (d', some s)) :
    performAll p d (steps ++ rest) = (d', some s) := by
  induction steps generalizing d with
  | nil => simp [performAll] at h
  | cons m steps ih =>
    rw [List.cons_append, performAll]
    rw [performAll] at h
    split at h
    next mid hm => exact ih h
    next mid s' hm => exact h

theorem performAll_singleton : performAll p d [m] = perform p d m := by
  rw [performAll]
  split
  next mid hm => rw [performAll, hm]
  next mid s hm => rw [hm]

/-- A mutation is carried out leaf by leaf. -/
theorem perform_eq_leaves (m : Mutation) (d : Draft) :
    perform p d m = performAll p d m.leaves := by
  -- by the depth of the batches, and inside of one batch by its steps
  induction m using Mutation.induct generalizing d with
  | single m hm => rw [Mutation.leaves_of_single hm, performAll_singleton]
  | batch label steps ih =>
    rw [perform, Mutation.leaves]
    induction steps generalizing d with
    | nil => rfl
    | cons m rest ihrest =>
      have head := ih m List.mem_cons_self d
      rw [performAll, Mutation.leavesOf]
      cases hm : perform p d m with
      | mk mid outcome =>
        rw [hm] at head
        cases outcome with
        | none =>
          rw [performAll_append_of_ok head.symm]
          exact ihrest (fun m hmem => ih m (List.mem_cons_of_mem _ hmem)) mid
        | some s => rw [performAll_append_of_stop head.symm]

/-- What accepted changes keep one by one is kept by carrying out any mutation, also by one that is
stopped on the way. -/
theorem perform_induct {R : Draft → Draft → Prop} (refl : ∀ d, R d d)
    (trans : ∀ {a b c}, R a b → R b c → R a c)
    (single : ∀ {d m d'}, Accepted p d m d' → R d d') (d : Draft) (m : Mutation) :
    R d (perform p d m).1 := by
  -- the leaves are single, so each of them is accepted or leaves the draft as it is
  rw [perform_eq_leaves]
  have hsingle := m.single_of_mem_leaves
  generalize m.leaves = steps at hsingle
  induction steps generalizing d with
  | nil => exact refl d
  | cons leaf rest ih =>
    have hrest := fun mid => ih mid fun m hm => hsingle m (List.mem_cons_of_mem _ hm)
    rw [performAll]
    cases hm : perform p d leaf with
    | mk mid outcome =>
      rcases perform_single (hsingle leaf List.mem_cons_self) hm with ⟨rfl, ok⟩ | ⟨hstop, rfl⟩
      · exact trans (single ok) (hrest mid)
      · obtain ⟨s, rfl⟩ := Option.ne_none_iff_exists'.mp hstop
        exact refl mid

/-- Carrying out a mutation, even in part, goes on from the draft. -/
theorem exists_extends_perform (d : Draft) (m : Mutation) :
    ∃ changes, Extends d changes (perform p d m).1 := by
  refine perform_induct (R := fun d d' => ∃ changes, Extends d changes d') ?_ ?_ ?_ d m
  · exact fun d => ⟨[], .refl d⟩
  · rintro a b c ⟨q, hq⟩ ⟨q', hq'⟩
    exact ⟨q ++ q', hq.trans hq'⟩
  · exact fun h => h.extends_by

/-- Taking back what a stopped mutation did meets no fault and leaves no trace. -/
theorem rollback_perform (d : Draft) (m : Mutation) :
    (perform p d m).1.rollback d.mark = (d, none) := by
  obtain ⟨changes, h⟩ := exists_extends_perform (p := p) d m
  exact h.rollback_eq

/-- Staging is carrying out, but for what is refused. -/
theorem stage_cases (d : Draft) (m : Mutation) :
    (∃ r, (perform p d m).2 = some (.rejected r) ∧ stage p d m = (d, some (.rejected r))) ∨
      ((∀ r, (perform p d m).2 ≠ some (.rejected r)) ∧ stage p d m = perform p d m) := by
  have hback := rollback_perform (p := p) d m
  unfold stage
  split
  next d' r hm =>
    rw [hm] at hback ⊢
    exact .inl ⟨r, rfl, by rw [hback]⟩
  next hother =>
    refine .inr ⟨fun r hr => ?_, rfl⟩
    exact hother (perform p d m).1 r (Prod.ext rfl hr)

/-- Staging a mutation goes on from the draft. -/
theorem exists_extends_stage (d : Draft) (m : Mutation) :
    ∃ changes, Extends d changes (stage p d m).1 := by
  rcases stage_cases (p := p) d m with ⟨r, _, hs⟩ | ⟨_, hs⟩
  · rw [hs]
    exact ⟨[], .refl d⟩
  · rw [hs]
    exact exists_extends_perform d m

/-- A draft on record stays on record, and a property that effects keep stays with it. -/
theorem stage_keeps {P : Document → Prop}
    (keeps : ∀ {d m d'}, Effect p d m d' → P d → P d') (m : Mutation)
    (h : d.Recorded ∧ P d.working) :
    (stage p d m).1.Recorded ∧ P (stage p d m).1.working := by
  rcases stage_cases (p := p) d m with ⟨r, _, hs⟩ | ⟨_, hs⟩
  · rw [hs]
    exact h
  · rw [hs]
    refine perform_induct (R := fun a b => a.Recorded ∧ P a.working → b.Recorded ∧ P b.working)
      ?_ ?_ ?_ d m h
    · exact fun _ h => h
    · exact fun hab hbc h => hbc (hab h)
    · intro a m b accepted h
      obtain ⟨changes, hext⟩ := accepted.extends_by
      exact ⟨h.1.extends hext, keeps accepted.effect h.2⟩

/-- A planned mutation is one that is staged without a stop; the patch is what it changed, and the
document is the working copy after it. -/
theorem plan_eq_ok {doc doc' : Document} {patch : Patch}
    (h : plan p doc m = .ok (patch, doc')) :
    ∃ draft, stage p (start doc) m = (draft, none) ∧ Extends (start doc) patch draft ∧
      draft.working = doc' := by
  unfold plan at h
  split at h
  next draft hstage =>
    rw [Except.ok.injEq, Prod.mk.injEq] at h
    obtain ⟨rfl, rfl⟩ := h
    obtain ⟨changes, hext⟩ := exists_extends_stage (p := p) (start doc) m
    rw [hstage] at hext
    have hpatch : draft.patch = changes := by
      rw [patch, hext.log]
      simp [start]
    have hrec : draft.Recorded := (recorded_start doc).extends hext
    exact ⟨draft, hstage, hpatch ▸ hext, hrec.result_eq.symm⟩
  next => simp at h

/-- The patch of an accepted mutation leads to the document after it. -/
theorem trail_of_plan {doc doc' : Document} {patch : Patch}
    (h : plan p doc m = .ok (patch, doc')) : Trail doc patch doc' := by
  obtain ⟨draft, _, hext, rfl⟩ := plan_eq_ok h
  exact hext.trail

/-- A property that effects keep is kept by every accepted mutation. -/
theorem plan_keeps {P : Document → Prop} {doc doc' : Document} {patch : Patch}
    (keeps : ∀ {d m d'}, Effect p d m d' → P d → P d') (h : plan p doc m = .ok (patch, doc'))
    (hdoc : P doc) : P doc' := by
  obtain ⟨draft, hstage, _, rfl⟩ := plan_eq_ok h
  have hkept := stage_keeps keeps m ⟨recorded_start doc, hdoc⟩
  rw [hstage] at hkept
  exact hkept.2

theorem stage_of_single (single : m.isBatch = false) : stage p d m = perform p d m := by
  rcases stage_cases (p := p) d m with ⟨r, hr, hs⟩ | ⟨_, hs⟩
  · rcases perform_single single (rfl : perform p d m = (_, _)) with ⟨hn, _⟩ | ⟨_, hd⟩
    · simp [hn] at hr
    · rw [hs, ← hr]
      exact Prod.ext hd.symm rfl
  · exact hs

/-- Stages mutations one after the other, up to the first that is stopped. -/
def stageAll (p : Preset) (d : Draft) : List Mutation → Draft × Option Stop
  | [] => (d, none)
  | m :: rest => match stage p d m with
    | (d', none) => stageAll p d' rest
    | (d', some s) => (d', some s)

theorem stageAll_eq_performAll (single : ∀ m ∈ steps, m.isBatch = false) (d : Draft) :
    stageAll p d steps = performAll p d steps := by
  induction steps generalizing d with
  | nil => rw [stageAll, performAll]
  | cons m rest ih =>
    have hrest := ih fun m hm => single m (List.mem_cons_of_mem _ hm)
    rw [stageAll, performAll, stage_of_single (single m List.mem_cons_self)]
    split <;> simp_all

theorem perform_eq_stageAll (d : Draft) (m : Mutation) :
    perform p d m = stageAll p d m.leaves := by
  rw [perform_eq_leaves, stageAll_eq_performAll m.single_of_mem_leaves]

/-- A refused mutation leaves the draft as it was, tables and log alike, and taking it back meets no
fault. A batch comes to what its leaves come to when they are staged one after the other: it is
stopped exactly when one of them is, for the reason of the first one, and otherwise gives the same
draft. -/
theorem stage_atomic (p : Preset) (d : Draft) (m : Mutation) :
    (∀ d' r, perform p d m = (d', some (.rejected r)) → d'.rollback d.mark = (d, none)) ∧
    (∀ r, (stage p d m).2 = some (.rejected r) → (stage p d m).1 = d) ∧
    (stage p d m).2 = (stageAll p d m.leaves).2 ∧
    ((stage p d m).2 = none → stage p d m = stageAll p d m.leaves) := by
  have hback := rollback_perform (p := p) d m
  rw [← perform_eq_stageAll]
  refine ⟨?_, ?_⟩
  · intro d' r hm
    rwa [hm] at hback
  · rcases stage_cases (p := p) d m with ⟨r, hr, hs⟩ | ⟨hne, hs⟩
    · rw [hs]
      exact ⟨fun _ _ => rfl, hr.symm, fun h => by simp at h⟩
    · rw [hs]
      exact ⟨fun r hr => absurd hr (hne r), rfl, fun _ => rfl⟩

/-- The second step of the inner batch is refused, and the nodes added before it go with it. -/
theorem stage_atomic_nested :
    let d := start { metadata := { presetId := "topo", presetVersion := "2.0.0" } }
    let m : Mutation := .batch none [.addNode { id := "a", typeId := "cloud" },
      .batch none [.addNode { id := "b", typeId := "cloud" }, .removeNode "c"]]
    (perform Library.topology d m).2 = some (.rejected (.noNode "c")) ∧
      (perform Library.topology d m).1.working.nodes.keys = ["a", "b"] ∧
      (perform Library.topology d m).1.rollback d.mark = (d, none) ∧
      stage Library.topology d m = (d, some (.rejected (.noNode "c"))) ∧
      (stageAll Library.topology d m.leaves).2 = some (.rejected (.noNode "c")) := by
  intro d m
  have hperformed : (perform Library.topology d m).2 = some (.rejected (.noNode "c")) := by decide
  have hreached : (perform Library.topology d m).1.working.nodes.keys = ["a", "b"] := by decide
  have hrefused : (stage Library.topology d m).2 = some (.rejected (.noNode "c")) := by decide
  obtain ⟨hback, hleft, hleaves, _⟩ := stage_atomic Library.topology d m
  exact ⟨hperformed, hreached, hback _ _ (Prod.ext rfl hperformed),
    Prod.ext (hleft _ hrefused) hrefused, hleaves.symm.trans hrefused⟩

end Draft

end GraphWorkbench
