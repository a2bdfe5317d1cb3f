import Mathlib.Data.List.Forall2
import GraphWorkbench.Stix.Import
/-!
The shares that the entries of a bundle have in what an import creates and reports. Shares are put
together part by part; where each of several shares is about an entry of its own, what is about one
of these entries is its share.
-/
namespace GraphWorkbench.Stix

/-- A part of what an import creates and reports. -/
@[ext]
structure Share where
  created : List Item := []
  issues : List Issue := []
  warnings : List Warning := []
  unknown : List UnknownType := []

namespace Share

variable {a b c : Share} {i j : Nat}

def append (a b : Share) : Share :=
  ⟨a.created ++ b.created, a.issues ++ b.issues, a.warnings ++ b.warnings, a.unknown ++ b.unknown⟩

instance : Append Share := ⟨append⟩

@[simp] theorem created_append : (a ++ b).created = a.created ++ b.created := rfl

@[simp] theorem issues_append : (a ++ b).issues = a.issues ++ b.issues := rfl

@[simp] theorem warnings_append : (a ++ b).warnings = a.warnings ++ b.warnings := rfl

@[simp] theorem unknown_append : (a ++ b).unknown = a.unknown ++ b.unknown := rfl

@[simp] theorem nil_append (a : Share) : ({} : Share) ++ a = a := rfl

@[simp] theorem append_nil (a : Share) : a ++ ({} : Share) = a := by
  ext1 <;> exact List.append_nil _

theorem append_assoc (a b c : Share) : a ++ b ++ c = a ++ (b ++ c) := by
  ext1 <;> exact List.append_assoc ..

def sum (shares : List Share) : Share := shares.foldr (· ++ ·) {}

@[simp] theorem sum_cons (a : Share) (shares : List Share) :
    sum (a :: shares) = a ++ sum shares := rfl

theorem sum_append (as bs : List Share) : sum (as ++ bs) = sum as ++ sum bs := by
  induction as with
  | nil => rfl
  | cons a rest ih => rw [List.cons_append, sum_cons, ih, sum_cons, append_assoc]

/-- What is about the entry at a place. -/
def about (a : Share) (i : Nat) : Share :=
  ⟨a.created.filter (·.index = i), a.issues.filter (·.index = i), a.warnings.filter (·.index = i),
    a.unknown.filter (·.index = i)⟩

theorem about_append : (a ++ b).about i = a.about i ++ b.about i := by
  ext1 <;> exact List.filter_append ..

/-- All of a share is about the entry at a place. -/
structure Only (a : Share) (i : Nat) : Prop where
  created : ∀ item ∈ a.created, item.index = i
  issues : ∀ x ∈ a.issues, x.index = i
  warnings : ∀ w ∈ a.warnings, w.index = i
  unknown : ∀ u ∈ a.unknown, u.index = i

theorem Only.nil : ({} : Share).Only i := ⟨nofun, nofun, nofun, nofun⟩

theorem Only.append (ha : a.Only i) (hb : b.Only i) : (a ++ b).Only i := by
  refine ⟨?_, ?_, ?_, ?_⟩
  · exact List.forall_mem_append.mpr ⟨ha.created, hb.created⟩
  · exact List.forall_mem_append.mpr ⟨ha.issues, hb.issues⟩
  · exact List.forall_mem_append.mpr ⟨ha.warnings, hb.warnings⟩
  · exact List.forall_mem_append.mpr ⟨ha.unknown, hb.unknown⟩

theorem Only.sum {shares : List Share} (h : ∀ a ∈ shares, a.Only i) : (sum shares).Only i := by
  induction shares with
  | nil => exact .nil
  | cons a rest ih =>
    obtain ⟨ha, hrest⟩ := List.forall_mem_cons.mp h
    exact ha.append (ih hrest)

theorem Only.about_self (h : a.Only i) : a.about i = a := by
  ext1
  · exact List.filter_eq_self.mpr fun item hitem => decide_eq_true (h.created item hitem)
  · exact List.filter_eq_self.mpr fun x hx => decide_eq_true (h.issues x hx)
  · exact List.filter_eq_self.mpr fun w hw => decide_eq_true (h.warnings w hw)
  · exact List.filter_eq_self.mpr fun u hu => decide_eq_true (h.unknown u hu)

theorem Only.about_of_ne (h : a.Only i) (hne : i ≠ j) : a.about j = {} := by
  have hother : ∀ {k}, k = i → ¬ decide (k = j) = true := by
    rintro k rfl
    simpa using hne
  ext1
  · exact List.filter_eq_nil_iff.mpr fun item hitem => hother (h.created item hitem)
  · exact List.filter_eq_nil_iff.mpr fun x hx => hother (h.issues x hx)
  · exact List.filter_eq_nil_iff.mpr fun w hw => hother (h.warnings w hw)
  · exact List.filter_eq_nil_iff.mpr fun u hu => hother (h.unknown u hu)

section Sums

variable {α : Type} {R : α → Share → Prop} {index : α → Nat} {xs : List α} {shares : List Share}

/-- Nothing is about a place that none of the shares is about. -/
theorem about_sum_of_notMem (only : ∀ ⦃x a⦄, R x a → a.Only (index x))
    (h : List.Forall₂ R xs shares) (hi : i ∉ xs.map index) : (sum shares).about i = {} := by
  induction h with
  | nil => rfl
  | cons hx _ ih =>
    rw [List.map_cons, List.mem_cons, not_or] at hi
    rw [sum_cons, about_append, (only hx).about_of_ne (Ne.symm hi.1), ih hi.2]
    rfl

/-- Where the shares are about places that differ, what is about one of these places is the share of
it. -/
theorem about_sum (only : ∀ ⦃x a⦄, R x a → a.Only (index x)) (h : List.Forall₂ R xs shares)
    (distinct : (xs.map index).Nodup) {x : α} (hx : x ∈ xs) :
    R x ((sum shares).about (index x)) := by
  -- along the list, since the place of the first is not that of any other
  induction h with
  | nil => simp at hx
  | @cons y a rest others hy hrest ih =>
    rw [List.map_cons, List.nodup_cons] at distinct
    obtain ⟨hnew, hdistinct⟩ := distinct
    rcases List.mem_cons.mp hx with rfl | hmem
    · have hothers := about_sum_of_notMem only hrest hnew
      rw [sum_cons, about_append, (only hy).about_self, hothers, append_nil]
      exact hy
    · have hne : index y ≠ index x := fun he => hnew (he ▸ List.mem_map_of_mem hmem)
      rw [sum_cons, about_append, (only hy).about_of_ne hne, nil_append]
      exact ih hdistinct hmem

end Sums

end Share

/-! What an object comes to. -/

/-- A thing comes to its node, to an issue, or to the remark that there is such a node. -/
inductive NodeShare (v : ValidObject) : Share → Prop
  | created {n : Node} (named : n.id = v.id) :
      NodeShare v { created := [⟨v.index, v.id, v.kind, .addNode n⟩] }
  | issue {x : Issue} (here : x.index = v.index) : NodeShare v { issues := [x] }
  | existing : NodeShare v { warnings := [⟨v.index, v.id, .nodeExists v.id⟩] }

/-- An edge that is asked for is created, comes to an issue, or to the remark that there is such an
edge. -/
inductive EdgeShare (v : ValidObject) (id source target : String) : Share → Prop
  | created {e : Edge} (named : e.id = id) (starts : e.source = source) (ends : e.target = target) :
      EdgeShare v id source target { created := [⟨v.index, e.id, v.kind, .addEdge e⟩] }
  | issue {x : Issue} (here : x.index = v.index) : EdgeShare v id source target { issues := [x] }
  | existing : EdgeShare v id source target { warnings := [⟨v.index, v.id, .edgeExists id⟩] }

/-- A relationship comes to what its edge comes to, or to the remark that an end is left out. -/
inductive RelationshipShare (v : ValidObject) : Share → Prop
  | edge {a : Share}
      (h : EdgeShare v v.id (textAt v.raw "source_ref") (textAt v.raw "target_ref") a) :
      RelationshipShare v a
  | filtered (ref : String) :
      RelationshipShare v { warnings := [⟨v.index, v.id, .filteredReference ref⟩] }

/-- The id of the edge to a place of a sighting with a number of places. -/
def placeId (v : ValidObject) (count i : Nat) : String := if count = 1 then v.id else s!"{v.id}#{i}"

/-- A sighting as a whole comes to an issue or a remark, or else each of its places comes to what
the edge to it comes to. -/
inductive SightingShare (v : ValidObject) : Share → Prop
  | issue {x : Issue} (here : x.index = v.index) : SightingShare v { issues := [x] }
  | empty : SightingShare v { warnings := [⟨v.index, v.id, .emptySighting⟩] }
  | filtered (ref : String) :
      SightingShare v { warnings := [⟨v.index, v.id, .filteredReference ref⟩] }
  | places {places : List String} {shares : List Share}
      (given : (Entries.get? "where_sighted_refs" v.raw).getD (.arr []) = .arr (places.map .str))
      (any : places ≠ [])
      (each : List.Forall₂ (fun place => EdgeShare v (placeId v places.length place.2)
        (textAt v.raw "sighting_of_ref") place.1) places.zipIdx shares) :
      SightingShare v (.sum shares)

/-- The options leave a kind out: it is not wanted, or it connects and connections are not. -/
def Options.leavesOut (o : Options) (k : Kind) : Bool :=
  k.connects && !o.relationships || !o.accepts k.word

/-- What a valid object comes to under some options. -/
def ObjectShare (o : Options) (v : ValidObject) (a : Share) : Prop :=
  if o.leavesOut v.kind then a = {}
  else match v.kind with
    | .relationship => RelationshipShare v a
    | .sighting => SightingShare v a
    | _ => NodeShare v a

/-- What an entry comes to that had an outcome in validation. -/
def EntryShare (o : Options) : Outcome → Share → Prop
  | .issue x, a => a = { issues := [x] }
  | .unknown u, a => a = { unknown := [u] }
  | .valid v, a => ObjectShare o v a

section About

variable {v : ValidObject} {id source target : String} {a : Share}

theorem NodeShare.only (h : NodeShare v a) : a.Only v.index := by
  cases h with
  | created => exact ⟨by simp, by simp, by simp, by simp⟩
  | issue hx => exact ⟨by simp, by simpa using hx, by simp, by simp⟩
  | existing => exact ⟨by simp, by simp, by simp, by simp⟩

theorem EdgeShare.only (h : EdgeShare v id source target a) : a.Only v.index := by
  cases h with
  | created => exact ⟨by simp, by simp, by simp, by simp⟩
  | issue hx => exact ⟨by simp, by simpa using hx, by simp, by simp⟩
  | existing => exact ⟨by simp, by simp, by simp, by simp⟩

theorem RelationshipShare.only (h : RelationshipShare v a) : a.Only v.index := by
  cases h with
  | edge hedge => exact hedge.only
  | filtered => exact ⟨by simp, by simp, by simp, by simp⟩

theorem SightingShare.only (h : SightingShare v a) : a.Only v.index := by
  cases h with
  | issue hx => exact ⟨by simp, by simpa using hx, by simp, by simp⟩
  | empty => exact ⟨by simp, by simp, by simp, by simp⟩
  | filtered => exact ⟨by simp, by simp, by simp, by simp⟩
  | @places places shares _ _ each =>
    refine .sum fun b hb => ?_
    generalize places.zipIdx = targets at each
    induction each with
    | nil => simp at hb
    | cons hedge _ ih =>
      rcases List.mem_cons.mp hb with rfl | hrest
      · exact hedge.only
      · exact ih hrest

theorem ObjectShare.only {o : Options} (h : ObjectShare o v a) : a.Only v.index := by
  unfold ObjectShare at h
  split at h
  · exact h ▸ .nil
  · split at h
    · exact RelationshipShare.only h
    · exact SightingShare.only h
    · exact NodeShare.only h

end About

/-! What staging makes of shares: it keeps some of the created items and turns the others into
issues. -/

/-- Of some items those are kept that are accepted, and each of the others is told by an issue about
the same entry. -/
inductive Sifted : List Item → List Item → List Issue → Prop
  | done : Sifted [] [] []
  | keep {item : Item} {rest accepted : List Item} {issues : List Issue}
      (others : Sifted rest accepted issues) : Sifted (item :: rest) (item :: accepted) issues
  | drop {item : Item} {rest accepted : List Item} {issues : List Issue} {x : Issue}
      (here : x.index = item.index) (others : Sifted rest accepted issues) :
      Sifted (item :: rest) accepted (x :: issues)

namespace Sifted

variable {items others accepted : List Item} {issues : List Issue} {item : Item}

theorem eq_nil (h : Sifted [] accepted issues) : accepted = [] ∧ issues = [] := by
  cases h
  exact ⟨rfl, rfl⟩

theorem cases_singleton (h : Sifted [item] accepted issues) :
    accepted = [item] ∧ issues = [] ∨
      accepted = [] ∧ ∃ x : Issue, x.index = item.index ∧ issues = [x] := by
  cases h with
  | keep hrest =>
    obtain ⟨rfl, rfl⟩ := hrest.eq_nil
    exact .inl ⟨rfl, rfl⟩
  | drop here hrest =>
    obtain ⟨rfl, rfl⟩ := hrest.eq_nil
    exact .inr ⟨rfl, _, here, rfl⟩

theorem split (h : Sifted (items ++ others) accepted issues) :
    ∃ accepted₁ issues₁ accepted₂ issues₂, Sifted items accepted₁ issues₁ ∧
      Sifted others accepted₂ issues₂ ∧ accepted = accepted₁ ++ accepted₂ ∧
      issues = issues₁ ++ issues₂ := by
  induction items generalizing accepted issues with
  | nil => exact ⟨[], [], accepted, issues, .done, h, rfl, rfl⟩
  | cons item rest ih =>
    cases h with
    | keep hrest =>
      obtain ⟨_, _, _, _, h₁, h₂, rfl, rfl⟩ := ih hrest
      exact ⟨_, _, _, _, .keep h₁, h₂, rfl, rfl⟩
    | drop here hrest =>
      obtain ⟨_, _, _, _, h₁, h₂, rfl, rfl⟩ := ih hrest
      exact ⟨_, _, _, _, .drop here h₁, h₂, rfl, rfl⟩

/-- The items about one entry are sifted by themselves. -/
theorem filter (h : Sifted items accepted issues) (i : Nat) :
    Sifted (items.filter (·.index = i)) (accepted.filter (·.index = i))
      (issues.filter (·.index = i)) := by
  induction h with
  | done => exact .done
  | @keep item _ _ _ _ ih =>
    by_cases hi : item.index = i
    · simpa [hi] using ih.keep
    · simpa [hi] using ih
  | @drop item _ _ _ x here _ ih =>
    by_cases hi : item.index = i
    · have hx : x.index = i := here.trans hi
      simpa [hi, hx] using ih.drop here
    · have hx : x.index ≠ i := fun hx => hi (here ▸ hx)
      simpa [hi, hx] using ih

end Sifted

/-- A share after its items were sifted. -/
def Share.sifted (a : Share) (accepted : List Item) (issues : List Issue) : Share :=
  { a with created := accepted, issues := a.issues ++ issues }

section Sifting

variable {v : ValidObject} {id source target : String} {a : Share} {accepted : List Item}
  {issues : List Issue}

theorem Share.sifted_of_nil (hnil : a.created = []) (h : Sifted a.created accepted issues) :
    a.sifted accepted issues = a := by
  rw [hnil] at h
  obtain ⟨rfl, rfl⟩ := h.eq_nil
  ext1
  · exact hnil.symm
  · exact List.append_nil _
  · rfl
  · rfl

theorem NodeShare.sifted (h : NodeShare v a) (hs : Sifted a.created accepted issues) :
    NodeShare v (a.sifted accepted issues) := by
  cases h with
  | created named =>
    rcases hs.cases_singleton with ⟨rfl, rfl⟩ | ⟨rfl, x, hx, rfl⟩
    · exact .created named
    · exact .issue hx
  | issue here =>
    rw [Share.sifted_of_nil rfl hs]
    exact .issue here
  | existing =>
    rw [Share.sifted_of_nil rfl hs]
    exact .existing

theorem EdgeShare.sifted (h : EdgeShare v id source target a)
    (hs : Sifted a.created accepted issues) :
    EdgeShare v id source target (a.sifted accepted issues) := by
  cases h with
  | created named starts ends =>
    rcases hs.cases_singleton with ⟨rfl, rfl⟩ | ⟨rfl, x, hx, rfl⟩
    · exact .created named starts ends
    · exact .issue hx
  | issue here =>
    rw [Share.sifted_of_nil rfl hs]
    exact .issue here
  | existing =>
    rw [Share.sifted_of_nil rfl hs]
    exact .existing

theorem RelationshipShare.sifted (h : RelationshipShare v a)
    (hs : Sifted a.created accepted issues) : RelationshipShare v (a.sifted accepted issues) := by
  cases h with
  | edge hedge => exact .edge (hedge.sifted hs)
  | filtered ref =>
    rw [Share.sifted_of_nil rfl hs]
    exact .filtered ref

/-- Shares that have no issues yet are sifted one by one. -/
theorem Share.exists_sum_eq_sifted {α : Type} {R : α → Share → Prop} {xs : List α}
    {shares : List Share} (h : List.Forall₂ R xs shares)
    (keeps : ∀ ⦃x a accepted issues⦄, R x a → Sifted a.created accepted issues →
      R x (a.sifted accepted issues)) (hnone : (sum shares).issues = [])
    (hs : Sifted (sum shares).created accepted issues) :
    ∃ shares', List.Forall₂ R xs shares' ∧ sum shares' = (sum shares).sifted accepted issues := by
  induction h generalizing accepted issues with
  | nil =>
    obtain ⟨rfl, rfl⟩ := hs.eq_nil
    exact ⟨[], .nil, rfl⟩
  | @cons x a rest others hx _ ih =>
    rw [sum_cons, issues_append, List.append_eq_nil_iff] at hnone
    -- what was accepted of the first share stands before what was accepted of the others
    obtain ⟨accepted₁, issues₁, accepted₂, issues₂, h₁, h₂, rfl, rfl⟩ := hs.split
    obtain ⟨shares', hothers, hsum⟩ := ih hnone.2 h₂
    refine ⟨_, .cons (keeps hx h₁) hothers, ?_⟩
    rw [sum_cons, hsum]
    ext1
    · rfl
    · simp [sifted, hnone.1, hnone.2]
    · rfl
    · rfl

theorem SightingShare.sifted (h : SightingShare v a) (hpure : a.issues = [] ∨ a.created = [])
    (hs : Sifted a.created accepted issues) : SightingShare v (a.sifted accepted issues) := by
  -- a share that asks for something has no issue yet, so those of staging are its own
  rcases hpure with hnone | hnil
  · cases h with
    | issue => simp at hnone
    | empty =>
      rw [Share.sifted_of_nil rfl hs]
      exact .empty
    | filtered ref =>
      rw [Share.sifted_of_nil rfl hs]
      exact .filtered ref
    | places given any each =>
      obtain ⟨shares', hshares', hsum⟩ :=
        Share.exists_sum_eq_sifted each (fun _ _ _ _ => EdgeShare.sifted) hnone hs
      rw [← hsum]
      exact .places given any hshares'
  · rwa [Share.sifted_of_nil hnil hs]

theorem ObjectShare.sifted {o : Options} (h : ObjectShare o v a)
    (hpure : a.issues = [] ∨ a.created = []) (hs : Sifted a.created accepted issues) :
    ObjectShare o v (a.sifted accepted issues) := by
  unfold ObjectShare at h ⊢
  by_cases hleft : o.leavesOut v.kind = true
  · rw [if_pos hleft] at h ⊢
    subst h
    exact Share.sifted_of_nil rfl hs
  · rw [if_neg hleft] at h ⊢
    cases hkind : v.kind <;> simp only [hkind] at h ⊢
    case relationship => exact h.sifted hs
    case sighting => exact h.sifted hpure hs
    all_goals exact h.sifted hs

end Sifting

end GraphWorkbench.Stix
