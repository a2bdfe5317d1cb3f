import GraphWorkbench.Document.Rejection
/-!
Computations that may be stopped: what it says that one of several steps came to an end.
-/
namespace GraphWorkbench.Outcome

variable {ε ε' α β : Type}

theorem bind_eq_ok {x : Except ε α} {f : α → Except ε β} {b : β} :
    (x >>= f) = .ok b ↔ ∃ a, x = .ok a ∧ f a = .ok b := by
  cases x with
  | error e => simp [bind, Except.bind]
  | ok a => simp [bind, Except.bind]

theorem ok_bind (a : α) (f : α → Except ε β) : (Except.ok a >>= f) = f a := rfl

theorem throw_bind (e : ε) (f : α → Except ε β) :
    ((throw e : Except ε α) >>= f) = .error e := rfl

theorem pure_eq_ok (a : α) : (pure a : Except ε α) = .ok a := rfl

theorem ofFault_ok (a : α) : Stop.ofFault (.ok a) = .ok a := rfl

theorem ofFault_error (f : Fault) : Stop.ofFault (.error f : Except Fault α) = .error (.fault f) :=
  rfl

theorem ofFault_eq_ok {r : Except Fault α} {a : α} : Stop.ofFault r = .ok a ↔ r = .ok a := by
  cases r with
  | error f => simp [ofFault_error]
  | ok b => simp [ofFault_ok]

theorem mapError_ok (f : ε → ε') (a : α) : (Except.ok a).mapError f = .ok a := rfl

theorem mapError_error (f : ε → ε') (e : ε) :
    (Except.error e : Except ε α).mapError f = .error (f e) := rfl

theorem mapError_eq_ok {f : ε → ε'} {x : Except ε α} {a : α} :
    x.mapError f = .ok a ↔ x = .ok a := by
  cases x with
  | error e => simp [mapError_error]
  | ok b => simp [mapError_ok]

theorem eq_ok_of_toOption {x : Except ε α} {a : α} (h : x.toOption = some a) : x = .ok a := by
  cases x <;> simp_all [Except.toOption]

theorem forM_eq_ok {xs : List α} {f : α → Except ε Unit} :
    xs.forM f = .ok () ↔ ∀ x ∈ xs, f x = .ok () := by
  induction xs with
  | nil => simp [pure_eq_ok]
  | cons x rest ih =>
    change (f x >>= fun _ => rest.forM f) = .ok () ↔ _
    rw [bind_eq_ok, List.forall_mem_cons, ← ih]
    constructor
    · rintro ⟨_, hx, hrest⟩
      exact ⟨hx, hrest⟩
    · rintro ⟨hx, hrest⟩
      exact ⟨(), hx, hrest⟩

/-- What every step over one of the items keeps is kept by a run that comes to its end. -/
theorem foldlM_induct_mem {P : β → Prop} {f : β → α → Except ε β} {xs : List α}
    (step : ∀ {b a b'}, a ∈ xs → f b a = .ok b' → P b → P b') {b b' : β}
    (h : xs.foldlM f b = .ok b') (hb : P b) : P b' := by
  induction xs generalizing b with
  | nil =>
    rw [List.foldlM_nil, pure_eq_ok, Except.ok.injEq] at h
    exact h ▸ hb
  | cons x rest ih =>
    rw [List.foldlM_cons] at h
    obtain ⟨mid, hx, hrest⟩ := bind_eq_ok.mp h
    exact ih (fun ha => step (List.mem_cons_of_mem _ ha)) hrest (step List.mem_cons_self hx hb)

theorem foldlM_induct {P : β → Prop} {f : β → α → Except ε β}
    (step : ∀ {b a b'}, f b a = .ok b' → P b → P b') {xs : List α} {b b' : β}
    (h : xs.foldlM f b = .ok b') (hb : P b) : P b' :=
  foldlM_induct_mem (fun _ => step) h hb

/-- A filter picks the items for which its test comes to `true`. -/
theorem mem_filterM {f : α → Except ε Bool} {xs ys : List α} (h : xs.filterM f = .ok ys) {y : α} :
    y ∈ ys ↔ y ∈ xs ∧ f y = .ok true := by
  have haux : ∀ xs acc picked, List.filterAuxM f xs acc = .ok picked →
      (y ∈ picked ↔ y ∈ acc ∨ y ∈ xs ∧ f y = .ok true) := by
    intro xs
    induction xs with
    | nil =>
      intro acc picked hpicked
      obtain rfl := Except.ok.inj hpicked
      simp
    | cons x rest ih =>
      intro acc picked hpicked
      obtain ⟨b, hx, hrest⟩ := bind_eq_ok.mp hpicked
      rw [ih _ _ hrest]
      cases b with
      | true => grind
      | false => grind
  obtain ⟨picked, hpicked, hys⟩ := bind_eq_ok.mp h
  obtain rfl := Except.ok.inj hys
  rw [List.mem_reverse, haux xs [] picked hpicked]
  simp

/-- A computation comes to an answer, of which something holds. -/
def Gives (x : Except ε α) (Q : α → Prop) : Prop := ∃ a, x = .ok a ∧ Q a

namespace Gives

variable {x : Except ε α} {Q Q' : α → Prop} {R : β → Prop} {a : α}

theorem ok (h : Q a) : Gives (.ok a : Except ε α) Q := ⟨a, rfl, h⟩

theorem imp (h : Gives x Q) (weaker : ∀ a, Q a → Q' a) : Gives x Q' := by
  obtain ⟨a, hx, ha⟩ := h
  exact ⟨a, hx, weaker a ha⟩

theorem bind {f : α → Except ε β} (h : Gives x Q) (next : ∀ a, Q a → Gives (f a) R) :
    Gives (x >>= f) R := by
  obtain ⟨a, rfl, ha⟩ := h
  exact next a ha

/-- A run comes to an answer when each step does, given what holds of the state and of the items
that are still to come. -/
theorem foldlM_rest {P : List α → β → Prop} {f : β → α → Except ε β}
    (step : ∀ x rest b, P (x :: rest) b → Gives (f b x) (P rest)) {xs : List α} {b : β}
    (start : P xs b) : Gives (xs.foldlM f b) (P []) := by
  induction xs generalizing b with
  | nil => exact ok start
  | cons x rest ih =>
    rw [List.foldlM_cons]
    exact (step x rest b start).bind fun mid hmid => ih hmid

theorem foldlM {f : β → α → Except ε β} {xs : List α}
    (step : ∀ x ∈ xs, ∀ b, R b → Gives (f b x) R) {b : β} (start : R b) :
    Gives (xs.foldlM f b) R := by
  -- the items still to come are items of the list
  have hrest := foldlM_rest (P := fun rest b => (∀ y ∈ rest, y ∈ xs) ∧ R b) (f := f)
    (fun x rest b hb => by
      obtain ⟨hmem, hR⟩ := hb
      obtain ⟨hx, hrest⟩ := List.forall_mem_cons.mp hmem
      exact (step x hx b hR).imp fun b' hb' => ⟨hrest, hb'⟩) (b := b) ⟨fun _ hy => hy, start⟩
  exact hrest.imp fun b' hb' => hb'.2

/-- A filter comes to an answer when its test does for every item. -/
theorem filterM {f : α → Except ε Bool} {xs : List α}
    (test : ∀ x ∈ xs, Gives (f x) fun b => b = true → Q x) :
    Gives (xs.filterM f) fun ys => ∀ y ∈ ys, Q y := by
  have haux : ∀ acc, (∀ y ∈ acc, Q y) →
      Gives (List.filterAuxM f xs acc) fun ys => ∀ y ∈ ys, Q y := by
    induction xs with
    | nil => exact fun acc hacc => ok hacc
    | cons x rest ih =>
      obtain ⟨hx, hrest⟩ := List.forall_mem_cons.mp test
      intro acc hacc
      refine hx.bind fun b hb => ih hrest _ ?_
      cases b with
      | true => exact List.forall_mem_cons.mpr ⟨hb rfl, hacc⟩
      | false => exact hacc
  refine (haux [] (by simp)).bind fun ys hys => ok ?_
  intro y hy
  exact hys y (List.mem_reverse.mp hy)

end Gives

/-- A computation comes to an answer. -/
def Answers (x : Except ε α) : Prop := ∃ a, x = .ok a

namespace Answers

theorem ok (a : α) : Answers (.ok a : Except ε α) := ⟨a, rfl⟩

/-- Where it does not depend on the first answer whether there is a second one, each is asked for by
itself. -/
theorem bind_iff {x : Except ε α} {f : α → Except ε β} {c : Prop}
    (next : ∀ a, x = .ok a → (Answers (f a) ↔ c)) : Answers (x >>= f) ↔ Answers x ∧ c := by
  cases x with
  | error e => simp [Answers, bind, Except.bind]
  | ok a => simp [ok_bind, next a rfl, Answers.ok]

theorem bind_of_next {x : Except ε α} {f : α → Except ε β} (next : ∀ a, Answers (f a)) :
    Answers (x >>= f) ↔ Answers x := by
  rw [bind_iff fun a _ => iff_true_intro (next a), and_true]

theorem mapM_iff {f : α → Except ε β} {xs : List α} :
    Answers (xs.mapM f) ↔ ∀ x ∈ xs, Answers (f x) := by
  induction xs with
  | nil => simp [pure_eq_ok, Answers.ok]
  | cons x rest ih =>
    rw [List.forall_mem_cons, ← ih, List.mapM_cons]
    exact bind_iff fun y _ => bind_of_next fun ys => .ok _

end Answers

/-- A computation that comes to no answer ends in one of the stops of a kind. -/
def StopsOnly (x : Except ε α) (F : ε → Prop) : Prop := ∀ e, x = .error e → F e

namespace StopsOnly

variable {F G : ε → Prop}

theorem ok (a : α) : StopsOnly (.ok a) F := fun _ h => nomatch h

theorem error {e : ε} (h : F e) : StopsOnly (.error e : Except ε α) F :=
  fun _ he => Except.error.inj he ▸ h

theorem imp {x : Except ε α} (h : StopsOnly x F) (weaker : ∀ e, F e → G e) : StopsOnly x G :=
  fun e he => weaker e (h e he)

theorem mapError {x : Except ε' α} {f : ε' → ε} (h : StopsOnly x fun e => F (f e)) :
    StopsOnly (x.mapError f) F := by
  cases x with
  | error e => exact error (h e rfl)
  | ok a => exact ok a

theorem bind {x : Except ε α} {next : α → Except ε β} (h : StopsOnly x F)
    (hnext : ∀ a, x = .ok a → StopsOnly (next a) F) : StopsOnly (x >>= next) F := by
  cases x with
  | error e => exact error (h e rfl)
  | ok a => exact hnext a rfl

theorem forM {xs : List α} {check : α → Except ε Unit} (h : ∀ x ∈ xs, StopsOnly (check x) F) :
    StopsOnly (xs.forM check) F := by
  induction xs with
  | nil => exact ok ()
  | cons x rest ih =>
    obtain ⟨hx, hrest⟩ := List.forall_mem_cons.mp h
    exact hx.bind fun _ _ => ih hrest

/-- A run stops only where one of its steps does, in a state that the steps before have kept. -/
theorem foldlM {P : β → Prop} {f : β → α → Except ε β} {xs : List α}
    (step : ∀ x ∈ xs, ∀ b, P b → StopsOnly (f b x) F ∧ ∀ b', f b x = .ok b' → P b') {b : β}
    (start : P b) : StopsOnly (xs.foldlM f b) F := by
  induction xs generalizing b with
  | nil => exact ok b
  | cons x rest ih =>
    obtain ⟨hx, hrest⟩ := List.forall_mem_cons.mp step
    rw [List.foldlM_cons]
    exact (hx b start).1.bind fun mid hmid => ih hrest ((hx b start).2 mid hmid)

end StopsOnly

end GraphWorkbench.Outcome
