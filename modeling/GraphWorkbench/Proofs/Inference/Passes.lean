import GraphWorkbench.Proofs.Inference.Derivation
/-!
The passes one after another, each on the edges of the one before. What is derived in the end is
the answer of one of them, sorted; so a law of every pass is a law of the whole derivation.
-/
namespace GraphWorkbench.Inference

open Outcome

variable {p : Preset} {d : Document}

/-- The answer of so many passes, starting from no edges. -/
def afterPasses (p : Preset) (d : Document) : Nat → Except Fault (List DerivedEdge × Attributes)
  | 0 => .ok ([], .empty)
  | n + 1 => do
    let (edges, _) ← afterPasses p d n
    pass p d edges

theorem afterPasses_gives (hp : p.WellFormed) (hd : d.Valid p) (n : Nat) :
    Gives (afterPasses p d n) fun answer => Good p d answer.1 := by
  induction n with
  | zero => exact Gives.ok Good.nil
  | succ n ih => exact ih.bind fun answer hgood => pass_gives hp hd hgood

/-- A law of the empty list that every pass establishes holds after any number of passes. -/
theorem afterPasses_induct {P : List DerivedEdge → Prop} (start : P [])
    (step : ∀ edges answer, pass p d edges = .ok answer → P answer.1) {n : Nat}
    {answer : List DerivedEdge × Attributes} (h : afterPasses p d n = .ok answer) :
    P answer.1 := by
  cases n with
  | zero => exact Except.ok.inj h ▸ start
  | succ n =>
    obtain ⟨before, _, hpass⟩ := bind_eq_ok.mp h
    exact step before.1 answer hpass

theorem settle_eq_afterPasses {left done : Nat} {edges : List DerivedEdge}
    {attributes : Attributes} {i : Inference}
    (reached : afterPasses p d done = .ok (edges, attributes))
    (h : settle p d left done edges attributes = .ok i) :
    ∃ n answer, n ≤ done + left ∧ afterPasses p d n = .ok answer ∧
      i.edges = answer.1.mergeSort graver := by
  induction left generalizing done edges attributes with
  | zero => exact ⟨done, _, Nat.le_refl _, reached, by rw [← Except.ok.inj h]⟩
  | succ left ih =>
    rw [settle] at h
    obtain ⟨⟨edges', attributes'⟩, hpass, hrest⟩ := bind_eq_ok.mp h
    have hnext : afterPasses p d (done + 1) = .ok (edges', attributes') := by
      rw [afterPasses, reached, ok_bind]
      exact hpass
    by_cases hsame : edges' = edges ∧ sameAttributes attributes' attributes = true
    · -- the last pass changed nothing, so the edges are those of the pass before
      simp only [hsame, and_self, if_true] at hrest
      exact ⟨done, _, by omega, reached, by rw [← Except.ok.inj hrest]⟩
    · simp only [hsame, if_false] at hrest
      obtain ⟨n, last, hn, hlast, hedges⟩ := ih hnext hrest
      exact ⟨n, last, by omega, hlast, hedges⟩

/-- What is derived is what some number of passes came to, the graver edges first. -/
theorem recompute_eq_afterPasses {passes : Int} {i : Inference}
    (h : recompute p d passes = .ok i) :
    ∃ n answer, n ≤ (passLimit p passes).toNat ∧ afterPasses p d n = .ok answer ∧
      i.edges = answer.1.mergeSort graver := by
  unfold recompute at h
  split at h
  · obtain ⟨n, answer, hn, hanswer, hedges⟩ := settle_eq_afterPasses rfl h
    exact ⟨n, answer, by omega, hanswer, hedges⟩
  · exact ⟨0, _, Nat.zero_le _, rfl, by rw [← Except.ok.inj h, List.mergeSort_nil]⟩

end GraphWorkbench.Inference
