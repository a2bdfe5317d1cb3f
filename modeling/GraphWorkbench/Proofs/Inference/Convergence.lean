import GraphWorkbench.Proofs.Inference.Completeness
import GraphWorkbench.Proofs.Inference.Recompute
import GraphWorkbench.Proofs.Sorting
/-!
What it means that the passes converged. They stop at the first answer that a further pass leaves as
it is, and such an answer does not depend on how many more passes were allowed. Where the number of
passes ends before that, the answer of the last one is given, with a warning.
-/
namespace GraphWorkbench

/-- The preset with another number of passes. -/
def Preset.capped (p : Preset) (cap : Option Nat) : Preset :=
  { p with behavior := { p.behavior with inferenceMaxPasses := cap } }

namespace Inference

open Outcome

variable {p : Preset} {d : Document} {left done more : Nat} {edges : List DerivedEdge}
  {attributes : Attributes} {i : Inference}

/-- Derived edges in the order of their ids, in which they go into the graph of the next pass. -/
def byId (edges : List DerivedEdge) : List DerivedEdge := edges.mergeSort fun a b => a.id ≤ b.id

section Order

theorem byId_trans (a b c : DerivedEdge) (hab : decide (a.id ≤ b.id) = true)
    (hbc : decide (b.id ≤ c.id) = true) : decide (a.id ≤ c.id) = true := by
  rw [decide_eq_true_eq] at hab hbc ⊢
  exact String.le_trans hab hbc

theorem byId_total (a b : DerivedEdge) :
    (decide (a.id ≤ b.id) || decide (b.id ≤ a.id)) = true := by
  rw [Bool.or_eq_true, decide_eq_true_eq, decide_eq_true_eq]
  exact String.le_total a.id b.id

/-- Edges that ids tell apart come to one order by their ids, however they stood before. -/
theorem byId_eq_of_perm {edges edges' : List DerivedEdge}
    (apart : ∀ e ∈ edges, ∀ f ∈ edges, e.id = f.id → e = f) (same : edges.Perm edges') :
    byId edges = byId edges' := by
  refine mergeSort_eq_of_perm byId_trans byId_total ?_ same
  intro e f he hf hef hfe
  rw [decide_eq_true_eq] at hef hfe
  exact apart e he f (same.mem_iff.mpr hf) (String.le_antisymm hef hfe)

/-- The edges of an answer stand in the order of their ids. -/
theorem byId_of_pass {before : List DerivedEdge} {answer : List DerivedEdge × Attributes}
    (run : pass p d before = .ok answer) : byId answer.1 = answer.1 := by
  obtain ⟨h, _, hrest⟩ := bind_eq_ok.mp run
  obtain ⟨kept, _, hanswer⟩ := bind_eq_ok.mp hrest
  obtain rfl := Except.ok.inj hanswer
  apply List.mergeSort_of_pairwise
  exact List.pairwise_mergeSort byId_trans byId_total kept.values

/-- The answer of some number of passes is got back from its edges in the order of their gravity. -/
theorem byId_graver (hd : d.Valid p) {n : Nat} {answer : List DerivedEdge × Attributes}
    (h : afterPasses p d n = .ok answer) : byId (answer.1.mergeSort graver) = answer.1 := by
  cases n with
  | zero => rw [← Except.ok.inj h, List.mergeSort_nil, byId, List.mergeSort_nil]
  | succ n =>
    obtain ⟨before, _, hpass⟩ := bind_eq_ok.mp h
    have hids : ∀ e ∈ answer.1, ∀ f ∈ answer.1, e.id = f.id → e = f :=
      fun e he f hf => eq_of_id_of_pass hd hpass he hf
    rw [← byId_eq_of_perm hids (List.mergeSort_perm answer.1 graver).symm, byId_of_pass hpass]

end Order

section Settling

/-- Passes end at an answer that a further pass leaves as it is, or with the last of their number. -/
theorem settle_cases (reached : afterPasses p d done = .ok (edges, attributes))
    (h : settle p d left done edges attributes = .ok i) :
    (∃ n answer again, afterPasses p d n = .ok answer ∧ pass p d answer.1 = .ok (answer.1, again) ∧
      sameAttributes again answer.2 = true ∧
      i = ⟨answer.1.mergeSort graver, answer.2, n + 1, true⟩) ∨
    ∃ answer, afterPasses p d (done + left) = .ok answer ∧
      i = ⟨answer.1.mergeSort graver, answer.2, done + left, false⟩ := by
  induction left generalizing done edges attributes with
  | zero => exact .inr ⟨_, reached, (Except.ok.inj h).symm⟩
  | succ left ih =>
    rw [settle] at h
    obtain ⟨⟨edges', attributes'⟩, hpass, hrest⟩ := bind_eq_ok.mp h
    by_cases hsame : edges' = edges ∧ sameAttributes attributes' attributes = true
    · obtain ⟨rfl, hattributes⟩ := hsame
      simp only [hattributes, and_self, if_true] at hrest
      exact .inl ⟨done, _, attributes', reached, hpass, hattributes, (Except.ok.inj hrest).symm⟩
    · have hnext : afterPasses p d (done + 1) = .ok (edges', attributes') := by
        rw [afterPasses, reached, ok_bind]
        exact hpass
      simp only [hsame, if_false] at hrest
      have hlast : done + 1 + left = done + (left + 1) := by omega
      rw [← hlast]
      exact ih hnext hrest

/-- Passes that have converged would not go on if more of them were allowed. -/
theorem settle_mono (h : settle p d left done edges attributes = .ok i)
    (converged : i.converged = true) (enough : left ≤ more) :
    settle p d more done edges attributes = .ok i := by
  induction left generalizing more done edges attributes with
  | zero =>
    rw [← Except.ok.inj h] at converged
    exact nomatch converged
  | succ left ih =>
    obtain ⟨more, rfl⟩ : ∃ m, more = m + 1 := ⟨more - 1, by omega⟩
    rw [settle] at h ⊢
    obtain ⟨⟨edges', attributes'⟩, hpass, hrest⟩ := bind_eq_ok.mp h
    rw [hpass, ok_bind]
    by_cases hsame : edges' = edges ∧ sameAttributes attributes' attributes = true
    · simp only [hsame, and_self, if_true] at hrest ⊢
      exact hrest
    · simp only [hsame, if_false] at hrest ⊢
      exact ih hrest (by omega)

end Settling

section Caps

variable {cap : Option Nat}

theorem pass_capped : pass (p.capped cap) d edges = pass p d edges := rfl

theorem settle_capped :
    settle (p.capped cap) d left done edges attributes = settle p d left done edges attributes := by
  induction left generalizing done edges attributes with
  | zero => rfl
  | succ left ih =>
    rw [settle, settle, pass_capped]
    simp only [ih]

theorem recompute_capped (on : enabled p = true) {passes : Int} :
    recompute (p.capped cap) d passes =
      settle p d (passLimit (p.capped cap) passes).toNat 0 [] .empty := by
  have hon : enabled (p.capped cap) = true := on
  unfold recompute
  rw [if_pos hon, settle_capped]

end Caps

section Example

/-- One pass on the row of hosts is not enough to see that nothing changes any more. -/
theorem hostRow_unsettled : (recompute (watchingPreset.capped (some 1)) hostRow 3).toOption.map
    Inference.converged = some false := by
  decide +kernel

theorem hostRow_settled : (recompute (watchingPreset.capped none) hostRow 3).toOption.map
    Inference.converged = some true := by
  decide +kernel

end Example

/-- The members of a warning that the passes ended too early. -/
def tooEarly (passes : Nat) : Json :=
  .obj [("passes", .int passes), ("message", .str
      s!"Derived set still changing after {passes} pass(es); returning the last pass"),
    ("code", .str "inference-non-convergence")]

/-- What is derived with a cap on the passes, when it converges, is what any higher cap gives, and a
further pass on its edges gives it once more. When it does not converge, it is the answer of the last
of the passes, of which there were as many as the cap allows, and one warning says so. -/
theorem recompute_converges {candidate : Json} (accepted : Audit.validate candidate = .ok (.ok p))
    (on : enabled p = true) (valid : d.Valid p) {cap higher : Option Nat} {passes passes' : Int}
    (some_pass : 1 ≤ passLimit (p.capped cap) passes)
    (raised : passLimit (p.capped cap) passes ≤ passLimit (p.capped higher) passes') :
    ∃ i, recompute (p.capped cap) d passes = .ok i ∧
      (i.converged = true →
        recompute (p.capped higher) d passes' = .ok i ∧
        ∃ again, pass p d (byId i.edges) = .ok (byId i.edges, again) ∧
          sameAttributes again i.attributes = true) ∧
      (i.converged = false →
        (i.passes : Int) = passLimit (p.capped cap) passes ∧
        Entries.get? "warnings" i.fields = some (.arr [tooEarly i.passes]) ∧
        ∃ answer, afterPasses p d i.passes = .ok answer ∧
          i.edges = answer.1.mergeSort graver ∧ i.attributes = answer.2) := by
  have hwell := Audit.wellFormed_of_validate accepted
  have hsettled : Gives (settle p d (passLimit (p.capped cap) passes).toNat 0 [] .empty)
      (Settled p d) := settle_gives hwell valid Good.nil
  obtain ⟨i, hi, _⟩ := hsettled
  refine ⟨i, (recompute_capped on).trans hi, ?_, ?_⟩
  · intro hconverged
    refine ⟨(recompute_capped on).trans (settle_mono hi hconverged (by omega)), ?_⟩
    obtain ⟨n, answer, again, hanswer, hagain, hsame, rfl⟩ | ⟨_, _, rfl⟩ := settle_cases rfl hi
    · exact ⟨again, by rw [byId_graver valid hanswer]; exact hagain, hsame⟩
    · exact nomatch hconverged
  · intro hcut
    obtain ⟨_, _, _, _, _, _, rfl⟩ | ⟨answer, hanswer, rfl⟩ := settle_cases rfl hi
    · exact nomatch hcut
    · refine ⟨?_, rfl, answer, hanswer, rfl, rfl⟩
      dsimp only
      omega

theorem recompute_converges_hostRow :
    Audit.validate watchingHosts = .ok (.ok watchingPreset) ∧ enabled watchingPreset = true ∧
      hostRow.Valid watchingPreset ∧
      (∃ i, recompute (watchingPreset.capped (some 1)) hostRow 3 = .ok i ∧ i.passes = 1 ∧
        Entries.get? "warnings" i.fields = some (.arr [tooEarly 1]) ∧
        ∃ answer, afterPasses watchingPreset hostRow 1 = .ok answer ∧
          i.edges = answer.1.mergeSort graver) ∧
      ∃ i, recompute (watchingPreset.capped none) hostRow 3 = .ok i ∧
        recompute (watchingPreset.capped (some 5)) hostRow 3 = .ok i := by
  have hon : enabled watchingPreset = true := by decide
  refine ⟨watchingHosts_accepted, hon, hostRow_valid, ?_, ?_⟩
  · have hone : 1 ≤ passLimit (watchingPreset.capped (some 1)) 3 := by decide
    obtain ⟨i, hi, _, hcut⟩ :=
      recompute_converges watchingHosts_accepted hon hostRow_valid hone (Int.le_refl _)
    have hflag := hostRow_unsettled
    rw [hi] at hflag
    obtain ⟨hpasses, hwarnings, answer, hanswer, hedges, _⟩ := hcut (Option.some.inj hflag)
    have hcount : i.passes = 1 := Int.ofNat.inj hpasses
    rw [hcount] at hwarnings hanswer
    exact ⟨i, hi, hcount, hwarnings, answer, hanswer, hedges⟩
  · have hthree : 1 ≤ passLimit (watchingPreset.capped none) 3 := by decide
    have hfive : passLimit (watchingPreset.capped none) 3 ≤
        passLimit (watchingPreset.capped (some 5)) 3 := by decide
    obtain ⟨i, hi, hkept, _⟩ :=
      recompute_converges watchingHosts_accepted hon hostRow_valid hthree hfive
    have hflag := hostRow_settled
    rw [hi] at hflag
    exact ⟨i, hi, (hkept (Option.some.inj hflag)).1⟩

end Inference

end GraphWorkbench
