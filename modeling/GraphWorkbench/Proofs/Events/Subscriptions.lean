import Mathlib.Data.List.Induction
import Mathlib.Data.List.Perm.Subperm
import GraphWorkbench.Proofs.Events.Delivery
/-!
What a token cancels. A `Roster` has a seat for each subscription, and a token lets go the seat that
it was given for, once. The bus knows a subscription by its handler only and lets go the first one
of the same handler. So it never calls more than those who are on the roster, and it calls the same
as long as every token is used where this makes no difference: where, if a subscription of its
handler stands, the token's own one stands too, and no other handler stands between the two.
-/
namespace GraphWorkbench

/-- A subscription of its own, told apart from equal ones by its number. -/
structure Seat where
  number : Nat
  subscription : Subscription
deriving DecidableEq

/-- The seats that stand, in the order in which they were taken, and the seat that each token was
given for last. -/
structure Roster where
  seats : List Seat := []
  holders : Table Seat := .empty
  next : Nat := 0

namespace Roster

/-- What a moment makes of a roster. To unsubscribe is to let go the token's own seat and nothing
else. -/
def after (r : Roster) : Moment → Roster
  | .subscribed s token =>
    let seat := ⟨r.next, s⟩
    { seats := r.seats ++ [seat], holders := r.holders.put token seat, next := r.next + 1 }
  | .unsubscribed token => match r.holders.get? token with
    | some seat => { r with seats := r.seats.filter (· ≠ seat) }
    | none => r
  | _ => r

/-- The roster of all that has happened. -/
def ofMoments (moments : List Moment) : Roster := moments.foldl after {}

theorem ofMoments_append_singleton (moments : List Moment) (m : Moment) :
    ofMoments (moments ++ [m]) = (ofMoments moments).after m := List.foldl_append

/-- The seats of an event. -/
def seatsOf (r : Roster) (event : String) : List Seat :=
  r.seats.filter fun seat => seat.subscription.event == event

/-- The handlers of an event, in the order in which they were subscribed. -/
def handlersOf (r : Roster) (event : String) : List String :=
  (r.seatsOf event).map (·.subscription.handler)

/-- Those whose subscription to an event stands, each with the call that is due to it. -/
def due (r : Roster) (e : Event) : List Delivery := (r.handlersOf e.name).map (⟨·, e⟩)

/-- A token is clear where, if a seat of its handler stands, the token's own seat stands too, and no
other handler has one between the two. Only seats of the given event count. -/
def Clear (r : Roster) (event token : String) : Prop :=
  ∀ own ∈ r.holders.get? token, own.subscription.event = event →
    ∀ seat ∈ r.seats, seat.subscription = own.subscription →
      own ∈ r.seats ∧ ∀ between ∈ r.seats, between.subscription.event = event →
        seat.number < between.number → between.number < own.number →
          between.subscription = own.subscription

instance (r : Roster) (event token : String) : Decidable (r.Clear event token) :=
  inferInstanceAs (Decidable (∀ own ∈ r.holders.get? token, _))

/-- The seats stand in the order of their numbers. -/
structure Ordered (r : Roster) : Prop where
  sorted : r.seats.Pairwise (·.number < ·.number)
  below : ∀ seat ∈ r.seats, seat.number < r.next

theorem Ordered.after {r : Roster} (h : r.Ordered) (m : Moment) : (r.after m).Ordered := by
  cases m with
  | subscribed s token =>
    constructor
    · refine List.pairwise_append.2 ⟨h.sorted, List.pairwise_singleton _ _, ?_⟩
      intro seat hseat new hnew
      rw [List.mem_singleton.1 hnew]
      exact h.below seat hseat
    · intro seat hseat
      rcases List.mem_append.1 hseat with hold | hnew
      · exact Nat.lt_succ_of_lt (h.below seat hold)
      · rw [List.mem_singleton.1 hnew]
        exact Nat.lt_succ_self _
  | unsubscribed token =>
    rw [Roster.after]
    split
    · exact ⟨h.sorted.filter _, fun seat hseat => h.below seat (List.mem_of_mem_filter hseat)⟩
    · exact h
  | _ => exact h

theorem ordered_ofMoments (moments : List Moment) : (ofMoments moments).Ordered := by
  induction moments using List.reverseRecOn with
  | nil => exact ⟨List.Pairwise.nil, fun _ h => nomatch h⟩
  | append_singleton moments m ih =>
    rw [ofMoments_append_singleton]
    exact ih.after m

/-- Where seats stand in order, a relation holds along the list if it holds along the numbers. -/
theorem pairwise_iff_of_sorted {seats : List Seat} {R : Seat → Seat → Prop}
    (hsorted : seats.Pairwise (·.number < ·.number)) :
    seats.Pairwise R ↔ ∀ a ∈ seats, ∀ c ∈ seats, a.number < c.number → R a c := by
  constructor
  · intro h a ha c hc hlt
    obtain ⟨i, hi, rfl⟩ := List.getElem_of_mem ha
    obtain ⟨j, hj, rfl⟩ := List.getElem_of_mem hc
    rcases Nat.lt_trichotomy i j with hij | rfl | hij
    · exact List.pairwise_iff_getElem.1 h i j hi hj hij
    · exact absurd hlt (Nat.lt_irrefl _)
    · exact absurd (List.pairwise_iff_getElem.1 hsorted j i hj hi hij) (Nat.lt_asymm hlt)
  · intro h
    exact hsorted.imp_of_mem fun ha hc hlt => h _ ha _ hc hlt

end Roster

theorem append_singleton_eq_cons_iff {α : Type} {a : α} {l : List α} :
    l ++ [a] = a :: l ↔ ∀ b ∈ l, b = a := by
  constructor
  · intro h
    induction l with
    | nil => simp
    | cons b l ih =>
      obtain ⟨rfl, hl⟩ := List.cons.inj h
      exact List.forall_mem_cons.2 ⟨rfl, ih hl⟩
  · intro h
    rw [List.eq_replicate_of_mem h, ← List.replicate_succ', List.replicate_succ]

/-- To take out the first element that equals a given one comes to the same as taking out the given
one itself, where before it only equal ones follow on an equal one. -/
theorem erase_middle_eq_iff {α : Type} [DecidableEq α] {a : α} {before after : List α} :
    (before ++ a :: after).erase a = before ++ after ↔
      before.Pairwise fun b c => b = a → c = a := by
  induction before with
  | nil => simp
  | cons b before ih =>
    rw [List.cons_append, List.pairwise_cons]
    by_cases hb : b = a
    · subst hb
      have hmiddle : before ++ b :: after = (before ++ [b]) ++ after := by simp
      rw [List.erase_cons_head, hmiddle, List.append_cancel_right_eq, append_singleton_eq_cons_iff]
      constructor
      · intro h
        exact ⟨fun c hc _ => h c hc, List.pairwise_of_forall_mem_list fun _ _ c hc _ => h c hc⟩
      · intro h c hc
        exact h.1 c hc rfl
    · rw [List.erase_cons_tail (by simpa using hb)]
      simp [hb, ih]

theorem erase_middle_perm {α : Type} [DecidableEq α] (a : α) (before after : List α) :
    ((before ++ a :: after).erase a).Perm (before ++ after) := by
  have hperm : ((before ++ a :: after).erase a).Perm ((a :: (before ++ after)).erase a) :=
    List.perm_middle.erase a
  rwa [List.erase_cons_head] at hperm

theorem Subscription.eq_iff {s t : Subscription} :
    s = t ↔ s.event = t.event ∧ s.handler = t.handler := by
  cases s
  cases t
  simp

namespace Roster

variable {r : Roster} {own : Seat} {event token : String}

theorem mem_seatsOf {seat : Seat} :
    seat ∈ r.seatsOf event ↔ seat ∈ r.seats ∧ seat.subscription.event = event := by
  rw [seatsOf, List.mem_filter, beq_iff_eq]

theorem filter_seatsOf_of_notMem (h : own ∉ r.seatsOf event) :
    (r.seatsOf event).filter (· ≠ own) = r.seatsOf event := by
  apply List.filter_eq_self.2
  intro seat hseat
  exact decide_eq_true fun heq => h (heq ▸ hseat)

theorem handlersOf_after_subscribed (s : Subscription) :
    (r.after (.subscribed s token)).handlersOf event =
      r.handlersOf event ++ if s.event = event then [s.handler] else [] := by
  by_cases h : s.event = event <;> simp [handlersOf, seatsOf, after, h]

theorem handlersOf_after_unsubscribed (hheld : r.holders.get? token = some own) :
    (r.after (.unsubscribed token)).handlersOf event =
      ((r.seatsOf event).filter (· ≠ own)).map (·.subscription.handler) := by
  simp only [after, hheld, handlersOf, seatsOf, List.filter_filter, Bool.and_comm]

theorem after_unknown (hheld : r.holders.get? token = none) :
    r.after (.unsubscribed token) = r := by
  simp only [after, hheld]

/-- A seat that stands parts the seats of its event into those before and those after it. -/
theorem Ordered.part (h : r.Ordered) (hevent : own.subscription.event = event)
    (hown : own ∈ r.seats) :
    ∃ before after, r.seatsOf event = before ++ own :: after ∧
      (r.seatsOf event).filter (· ≠ own) = before ++ after ∧
      before.Pairwise (·.number < ·.number) ∧
      ∀ seat, seat ∈ before ↔ (seat ∈ r.seats ∧ seat.subscription.event = event) ∧
        seat.number < own.number := by
  obtain ⟨before, after, hseats⟩ := List.append_of_mem (mem_seatsOf.2 ⟨hown, hevent⟩)
  have hsorted : (r.seatsOf event).Pairwise (·.number < ·.number) := h.sorted.filter _
  rw [hseats] at hsorted
  obtain ⟨hbefore, hafter, hacross⟩ := List.pairwise_append.1 hsorted
  have hlt (seat : Seat) (hseat : seat ∈ before) : seat.number < own.number :=
    hacross seat hseat own List.mem_cons_self
  have hgt (seat : Seat) (hseat : seat ∈ after) : own.number < seat.number :=
    List.rel_of_pairwise_cons hafter hseat
  have hne {seat : Seat} (h : seat.number ≠ own.number) : decide (seat ≠ own) = true :=
    decide_eq_true fun heq => h (congrArg Seat.number heq)
  refine ⟨before, after, hseats, ?_, hbefore, fun seat => ?_⟩
  · rw [hseats, List.filter_append, List.filter_cons_of_neg (by simp),
      List.filter_eq_self.2 fun seat hseat => hne (Nat.ne_of_lt (hlt seat hseat)),
      List.filter_eq_self.2 fun seat hseat => hne (Nat.ne_of_gt (hgt seat hseat))]
  · rw [← mem_seatsOf, hseats, List.mem_append, List.mem_cons]
    constructor
    · intro hseat
      exact ⟨.inl hseat, hlt seat hseat⟩
    · rintro ⟨hseat | rfl | hseat, hlast⟩
      · exact hseat
      · exact absurd hlast (Nat.lt_irrefl _)
      · exact absurd (hgt seat hseat) (Nat.lt_asymm hlast)

/-- To let go the first subscription of a handler comes to the same as letting go the token's own
seat exactly where the token is clear. -/
theorem Ordered.erase_handler_eq_iff (h : r.Ordered) (hheld : r.holders.get? token = some own)
    (hevent : own.subscription.event = event) :
    (r.handlersOf event).erase own.subscription.handler =
        (r.after (.unsubscribed token)).handlersOf event ↔ r.Clear event token := by
  have hclear : r.Clear event token ↔ ∀ seat ∈ r.seats, seat.subscription = own.subscription →
      own ∈ r.seats ∧ ∀ between ∈ r.seats, between.subscription.event = event →
        seat.number < between.number → between.number < own.number →
          between.subscription = own.subscription := by
    simp [Clear, hheld, hevent]
  rw [hclear, handlersOf_after_unsubscribed hheld]
  by_cases hown : own ∈ r.seats
  · -- the own seat stands, and the seats before it decide which one is let go
    obtain ⟨before, after, hseats, hrest, hbefore, hmem⟩ := h.part hevent hown
    rw [handlersOf, hrest, hseats, List.map_append, List.map_cons, List.map_append,
      erase_middle_eq_iff, List.pairwise_map, pairwise_iff_of_sorted hbefore]
    constructor
    · intro h seat hseat hsame
      refine ⟨hown, fun between hbetween hof hfirst hlast => ?_⟩
      have hseat' : seat ∈ before :=
        (hmem seat).2 ⟨⟨hseat, hsame ▸ hevent⟩, Nat.lt_trans hfirst hlast⟩
      have hbetween' : between ∈ before := (hmem between).2 ⟨⟨hbetween, hof⟩, hlast⟩
      exact Subscription.eq_iff.2 ⟨hof.trans hevent.symm,
        h seat hseat' between hbetween' hfirst (congrArg _ hsame)⟩
    · intro h seat hseat between hbetween hfirst hsame
      obtain ⟨⟨hseat', hof⟩, -⟩ := (hmem seat).1 hseat
      obtain ⟨⟨hbetween', hof'⟩, hlast⟩ := (hmem between).1 hbetween
      have hown' := h seat hseat' (Subscription.eq_iff.2 ⟨hof.trans hevent.symm, hsame⟩)
      exact congrArg _ (hown'.2 between hbetween' hof' hfirst hlast)
  · -- the own seat is gone, and nothing may be let go any more
    rw [filter_seatsOf_of_notMem fun hmem => hown (mem_seatsOf.1 hmem).1]
    change (r.handlersOf event).erase own.subscription.handler = r.handlersOf event ↔ _
    rw [List.erase_eq_self_iff, handlersOf, List.mem_map]
    constructor
    · intro h seat hseat hsame
      exact absurd ⟨seat, mem_seatsOf.2 ⟨hseat, hsame ▸ hevent⟩, congrArg _ hsame⟩ h
    · rintro h ⟨seat, hseat, hsame⟩
      obtain ⟨hseat', hof⟩ := mem_seatsOf.1 hseat
      exact hown (h seat hseat' (Subscription.eq_iff.2 ⟨hof.trans hevent.symm, hsame⟩)).1

/-- Whether the token is clear or not, no more handlers are left without the first subscription of
its handler than without its own seat. -/
theorem Ordered.erase_handler_subperm (h : r.Ordered) (hheld : r.holders.get? token = some own)
    (hevent : own.subscription.event = event) :
    ((r.handlersOf event).erase own.subscription.handler).Subperm
      ((r.after (.unsubscribed token)).handlersOf event) := by
  rw [handlersOf_after_unsubscribed hheld]
  by_cases hown : own ∈ r.seats
  · obtain ⟨before, after, hseats, hrest, -, -⟩ := h.part hevent hown
    rw [handlersOf, hrest, hseats, List.map_append, List.map_cons, List.map_append]
    exact (erase_middle_perm ..).subperm
  · rw [filter_seatsOf_of_notMem fun hmem => hown (mem_seatsOf.1 hmem).1]
    exact List.erase_sublist.subperm

/-- A token of another event changes nothing. -/
theorem handlersOf_after_unsubscribed_other (hheld : r.holders.get? token = some own)
    (hevent : own.subscription.event ≠ event) :
    (r.after (.unsubscribed token)).handlersOf event = r.handlersOf event := by
  rw [handlersOf_after_unsubscribed hheld,
    filter_seatsOf_of_notMem fun hmem => hevent (mem_seatsOf.1 hmem).2, handlersOf]

end Roster

namespace Bus

variable {behaviour : Behaviour} {origin b b' : Bus} {event token : String}

theorem handlersOf_note_subscribed (s : Subscription) :
    (b.note (.subscribed s token)).handlersOf event =
      b.handlersOf event ++ if s.event = event then [s.handler] else [] := by
  by_cases h : s.event = event <;> simp [handlersOf, note, h]

theorem handlersOf_note_unsubscribed {s : Subscription} (hheld : b.tokens.get? token = some s) :
    (b.note (.unsubscribed token)).handlersOf event =
      if s.event = event then (b.handlersOf event).erase s.handler else b.handlersOf event := by
  have herase (l : List Subscription) :
      ((l.erase s).filter fun t => t.event == event).map (·.handler) =
        if s.event = event then
          ((l.filter fun t => t.event == event).map (·.handler)).erase s.handler
        else (l.filter fun t => t.event == event).map (·.handler) := by
    induction l with
    | nil => simp
    | cons t l ih =>
      by_cases hsame : t = s
      · subst hsame
        by_cases h : t.event = event <;> simp [h]
      · rw [List.erase_cons_tail (by simpa using hsame)]
        have hother : t.event = event → s.event = event → t.handler ≠ s.handler :=
          fun ht hs heq => hsame (Subscription.eq_iff.2 ⟨ht.trans hs.symm, heq⟩)
        by_cases ht : t.event = event <;> by_cases hs : s.event = event <;> simp_all
  simp only [handlersOf, note, hheld, herase]

theorem handlersOf_note_unknown (hunknown : b.tokens.get? token = none) :
    (b.note (.unsubscribed token)).handlersOf event = b.handlersOf event := by
  simp only [handlersOf, note, hunknown]

/-- Each token stands for the subscription whose seat it holds. -/
def Tallies (b : Bus) (r : Roster) : Prop :=
  ∀ token, b.tokens.get? token = (r.holders.get? token).map Seat.subscription

theorem Tallies.step {r : Roster} (h : b.Tallies r) (m : Moment) :
    (b.note m).Tallies (r.after m) := by
  intro other
  cases m with
  | subscribed s token =>
    by_cases hother : other = token <;> simp [note, Roster.after, hother, h other]
  | unsubscribed token =>
    simp only [note, Roster.after, h token]
    cases r.holders.get? token <;> exact h other
  | _ => exact h other

theorem Tallies.known {r : Roster} (h : b.Tallies r) {own : Seat}
    (hheld : r.holders.get? token = some own) : b.tokens.get? token = some own.subscription := by
  rw [h, hheld, Option.map_some]

theorem Tallies.unknown {r : Roster} (h : b.Tallies r) (hheld : r.holders.get? token = none) :
    b.tokens.get? token = none := by
  rw [h, hheld, Option.map_none]

/-- A bus at which nothing has happened. -/
structure Fresh (b : Bus) : Prop where
  subscriptions : b.subscriptions = []
  tokens : b.tokens = .empty
  journal : b.journal = []

theorem Fresh.handlersOf_eq_nil (h : origin.Fresh) : origin.handlersOf event = [] := by
  simp [handlersOf, h.subscriptions]

theorem Fresh.tallies (h : origin.Fresh) (moments : List Moment) :
    (origin.replay moments).Tallies (Roster.ofMoments moments) := by
  induction moments using List.reverseRecOn with
  | nil =>
    intro token
    change origin.tokens.get? token = none
    rw [h.tokens]
    rfl
  | append_singleton moments m ih =>
    rw [replay_append_singleton, Roster.ofMoments_append_singleton]
    exact ih.step m

/-- The bus and the roster call the same handlers of an event. -/
def Agrees (b : Bus) (r : Roster) (event : String) : Prop :=
  b.handlersOf event = r.handlersOf event

/-- A step keeps the agreement except where it uses a token that is not clear. -/
theorem Agrees.step_iff {r : Roster} (hordered : r.Ordered) (htallies : b.Tallies r)
    (h : b.Agrees r event) (m : Moment) :
    (b.note m).Agrees (r.after m) event ↔
      ∀ token, m = .unsubscribed token → r.Clear event token := by
  cases m with
  | subscribed s token =>
    have hagrees : (b.note (.subscribed s token)).Agrees (r.after (.subscribed s token)) event := by
      rw [Agrees, handlersOf_note_subscribed, Roster.handlersOf_after_subscribed, h]
    exact ⟨fun _ _ hm => (by cases hm), fun _ => hagrees⟩
  | unsubscribed token =>
    have hiff : (b.note (.unsubscribed token)).Agrees (r.after (.unsubscribed token)) event ↔
        r.Clear event token := by
      cases hheld : r.holders.get? token with
      | none =>
        rw [Agrees, handlersOf_note_unknown (htallies.unknown hheld), Roster.after_unknown hheld]
        exact ⟨fun _ own hown => by simp [hheld] at hown, fun _ => h⟩
      | some own =>
        rw [Agrees, handlersOf_note_unsubscribed (htallies.known hheld), h]
        by_cases hevent : own.subscription.event = event
        · rw [if_pos hevent]
          exact hordered.erase_handler_eq_iff hheld hevent
        · rw [if_neg hevent, Roster.handlersOf_after_unsubscribed_other hheld hevent]
          refine ⟨fun _ own' hown' hevent' => ?_, fun _ => rfl⟩
          rw [hheld, Option.mem_some] at hown'
          exact absurd (hown' ▸ hevent') hevent
    rw [hiff]
    exact ⟨fun hclear _ heq => Moment.unsubscribed.inj heq ▸ hclear, fun hall => hall token rfl⟩
  | _ => exact ⟨fun _ _ hm => (by cases hm), fun _ => h⟩

/-- No step makes the bus call more than those who are on the roster. -/
theorem subperm_step {r : Roster} (hordered : r.Ordered) (htallies : b.Tallies r)
    (h : (b.handlersOf event).Subperm (r.handlersOf event)) (m : Moment) :
    ((b.note m).handlersOf event).Subperm ((r.after m).handlersOf event) := by
  cases m with
  | subscribed s token =>
    rw [handlersOf_note_subscribed, Roster.handlersOf_after_subscribed]
    exact (List.subperm_append_right _).2 h
  | unsubscribed token =>
    cases hheld : r.holders.get? token with
    | none =>
      rw [handlersOf_note_unknown (htallies.unknown hheld), Roster.after_unknown hheld]
      exact h
    | some own =>
      rw [handlersOf_note_unsubscribed (htallies.known hheld)]
      by_cases hevent : own.subscription.event = event
      · rw [if_pos hevent]
        exact (h.erase _).trans (hordered.erase_handler_subperm hheld hevent)
      · rw [if_neg hevent, Roster.handlersOf_after_unsubscribed_other hheld hevent]
        exact h
  | _ => exact h

/-- Every token is clear at the time it is used. -/
def AllClear (event : String) (moments : List Moment) : Prop :=
  ∀ before token after, moments = before ++ .unsubscribed token :: after →
    (Roster.ofMoments before).Clear event token

theorem allClear_append_singleton {moments : List Moment} {m : Moment} :
    AllClear event (moments ++ [m]) ↔ AllClear event moments ∧
      ∀ token, m = .unsubscribed token → (Roster.ofMoments moments).Clear event token := by
  constructor
  · intro h
    refine ⟨fun before token after hsplit => ?_, fun token hm => ?_⟩
    · exact h before token (after ++ [m]) (by rw [hsplit, List.append_assoc, List.cons_append])
    · exact h moments token [] (by rw [hm])
  · rintro ⟨h, hlast⟩ before token after hsplit
    obtain ⟨between, hmoments, -⟩ | ⟨between, hbefore, hm⟩ := append_eq_append_cons hsplit
    · exact h before token between hmoments
    · cases between with
      | nil =>
        rw [hbefore, List.append_nil]
        exact hlast token (List.cons.inj hm).1
      | cons _ between => simp at hm

/-- Where every token was clear, the bus calls those who are on the roster. -/
theorem Fresh.agrees (h : origin.Fresh) {moments : List Moment} (hclear : AllClear event moments) :
    (origin.replay moments).Agrees (Roster.ofMoments moments) event := by
  induction moments using List.reverseRecOn with
  | nil => exact h.handlersOf_eq_nil
  | append_singleton moments m ih =>
    obtain ⟨hmoments, hm⟩ := allClear_append_singleton.1 hclear
    rw [replay_append_singleton, Roster.ofMoments_append_singleton]
    exact ((ih hmoments).step_iff (Roster.ordered_ofMoments moments) (h.tallies moments) m).2 hm

/-- Whatever tokens are used, the bus calls no more than those who are on the roster. -/
theorem Fresh.subperm (h : origin.Fresh) (event : String) (moments : List Moment) :
    ((origin.replay moments).handlersOf event).Subperm
      ((Roster.ofMoments moments).handlersOf event) := by
  induction moments using List.reverseRecOn with
  | nil =>
    rw [replay, List.foldl_nil, h.handlersOf_eq_nil]
    exact List.nil_subperm
  | append_singleton moments m ih =>
    rw [replay_append_singleton, Roster.ofMoments_append_singleton]
    exact subperm_step (Roster.ordered_ofMoments moments) (h.tallies moments) ih m

/-- The second bus comes from the first one, at which nothing has happened, by subscribing,
unsubscribing and emitting, in any order and however often. -/
inductive Arises (behaviour : Behaviour) (origin : Bus) : Bus → Prop where
  | fresh : origin.Fresh → Arises behaviour origin origin
  | subscribe {b : Bus} (event handler token : String) : Arises behaviour origin b →
      Arises behaviour origin (b.subscribe event handler token)
  | unsubscribe {b b' : Bus} (token : String) : Arises behaviour origin b →
      b.unsubscribe token = .ok b' → Arises behaviour origin b'
  | emit {b b' : Bus} {e : Event} : Arises behaviour origin b → Runs behaviour b (.emit e) b' →
      Arises behaviour origin b'

theorem Arises.fresh_origin (h : Arises behaviour origin b) : origin.Fresh := by
  induction h with
  | fresh h => exact h
  | subscribe _ _ _ _ ih => exact ih
  | unsubscribe _ _ _ ih => exact ih
  | emit _ _ ih => exact ih

/-- All that happened at a bus happened by the rule of emissions. -/
theorem Arises.kept (h : Arises behaviour origin b) :
    b = origin.replay b.journal ∧ origin.Kept (fun _ => []) b.journal := by
  have hexists : ∃ moments, b = origin.replay moments ∧ origin.Kept (fun _ => []) moments := by
    induction h with
    | fresh => exact ⟨[], rfl, kept_nil _⟩
    | subscribe event handler token _ ih =>
      obtain ⟨moments, rfl, hkept⟩ := ih
      have hone : (origin.replay moments).Kept (fun _ => [])
          [.subscribed ⟨event, handler⟩ token] := (kept_nil _).cons_change rfl rfl
      exact ⟨_, (replay_append_singleton ..).symm, hkept.append hone fun _ _ => rfl⟩
    | unsubscribe token _ hunsubscribed ih =>
      obtain ⟨moments, rfl, hkept⟩ := ih
      obtain rfl := unsubscribe_eq_ok hunsubscribed
      have hone : (origin.replay moments).Kept (fun _ => []) [.unsubscribed token] :=
        (kept_nil _).cons_change rfl rfl
      exact ⟨_, (replay_append_singleton ..).symm, hkept.append hone fun _ _ => rfl⟩
    | emit _ hruns ih =>
      obtain ⟨moments, rfl, hkept⟩ := ih
      obtain ⟨moments', rfl, hkept'⟩ := hruns.kept trivial
      exact ⟨_, (replay_append ..).symm, hkept.append hkept' fun _ _ => rfl⟩
  obtain ⟨moments, rfl, hkept⟩ := hexists
  have hjournal : (origin.replay moments).journal = moments := by
    rw [journal_replay, h.fresh_origin.journal, List.nil_append]
  rw [hjournal]
  exact ⟨rfl, hkept⟩

/-- Whatever is subscribed, unsubscribed and emitted, an emission calls nobody more often than that
has subscriptions which are not cancelled by their own tokens. It calls exactly those, each once and
in their order, if every token was clear when it was used, and right after the first use of a token
that was not clear it does not. -/
theorem emission_calls_standing (h : Arises behaviour origin b) {before after : List Moment}
    {e : Event} (hemitted : b.journal = before ++ .emitted e :: after) :
    (callsFor (eventsOf before).length b.journal).Subperm ((Roster.ofMoments before).due e) ∧
    (AllClear e.name before →
      callsFor (eventsOf before).length b.journal = (Roster.ofMoments before).due e) ∧
    ∀ earlier token, before = earlier ++ [.unsubscribed token] → AllClear e.name earlier →
      (callsFor (eventsOf before).length b.journal = (Roster.ofMoments before).due e ↔
        (Roster.ofMoments earlier).Clear e.name token) := by
  obtain ⟨-, hkept⟩ := h.kept
  have hfresh := h.fresh_origin
  have hcalls : callsFor (eventsOf before).length b.journal = (origin.replay before).due e := by
    have hnumber : (origin.replay before).emissions = eventsOf before := by
      rw [emissions_replay, emissions, hfresh.journal]
      rfl
    rw [← hnumber]
    exact hkept.delivers before e after hemitted
  have hinjective : Function.Injective fun handler : String => (⟨handler, e⟩ : Delivery) :=
    fun _ _ heq => congrArg Delivery.handler heq
  have hagrees : callsFor (eventsOf before).length b.journal = (Roster.ofMoments before).due e ↔
      (origin.replay before).Agrees (Roster.ofMoments before) e.name := by
    rw [hcalls, due, Roster.due, hinjective.list_map.eq_iff, Agrees]
  refine ⟨?_, ?_, ?_⟩
  · rw [hcalls]
    exact (hfresh.subperm e.name before).map hinjective
  · intro hclear
    exact hagrees.2 (hfresh.agrees hclear)
  · rintro earlier token rfl hclear
    have hstep := (hfresh.agrees hclear).step_iff (Roster.ordered_ofMoments earlier)
      (hfresh.tallies earlier) (.unsubscribed token)
    rw [hagrees, replay_append_singleton, Roster.ofMoments_append_singleton, hstep]
    exact ⟨fun hall => hall token rfl, fun hone _ heq => Moment.unsubscribed.inj heq ▸ hone⟩

def idle : Behaviour := fun _ _ _ => .done

def blank : Bus := { log := { limit := 2 } }

theorem blank_fresh : blank.Fresh := ⟨rfl, rfl, rfl⟩

def alarm : Event := ⟨"fire", .null⟩

/-- The bell is subscribed before and after the horn, and the first subscription is cancelled. -/
def rehearsal : List Moment :=
  [.subscribed ⟨"fire", "bell"⟩ "first", .subscribed ⟨"fire", "horn"⟩ "second",
    .subscribed ⟨"fire", "bell"⟩ "third", .unsubscribed "first"]

/-- What happens at an alarm after the rehearsal: the horn is called, then the bell. -/
def parade : List Moment :=
  rehearsal ++ [.emitted alarm, .called 0 ⟨"horn", alarm⟩, .called 0 ⟨"bell", alarm⟩]

theorem emission_calls_standing_parade :
    Arises idle blank (blank.replay parade) ∧
      callsFor 0 (blank.replay parade).journal = (Roster.ofMoments rehearsal).due alarm ∧
      (Roster.ofMoments rehearsal).due alarm = [⟨"horn", alarm⟩, ⟨"bell", alarm⟩] := by
  have hprepared : Arises idle blank (blank.replay rehearsal) :=
    ((((Arises.fresh blank_fresh).subscribe "fire" "bell" "first").subscribe
      "fire" "horn" "second").subscribe "fire" "bell" "third").unsubscribe "first" rfl
  have hwithin : within idle 1 (blank.replay rehearsal) (.emit alarm) =
      some (blank.replay parade) := rfl
  have harises := hprepared.emit (runs_emit_of_within hwithin)
  have hclear : AllClear "fire" rehearsal := by
    have hnone : AllClear "fire" (rehearsal.take 3) := by
      intro before token after hsplit
      have hmem : .unsubscribed token ∈ rehearsal.take 3 := by simp [hsplit]
      simp [rehearsal] at hmem
    exact allClear_append_singleton.2 ⟨hnone, fun token htoken => by
      rw [← Moment.unsubscribed.inj htoken]
      decide⟩
  have hjournal : (blank.replay parade).journal = rehearsal ++ .emitted alarm ::
      [.called 0 ⟨"horn", alarm⟩, .called 0 ⟨"bell", alarm⟩] := rfl
  exact ⟨harises, (emission_calls_standing harises hjournal).2.1 hclear, by decide⟩

/-- The bell is subscribed twice, and the first of the two subscriptions is cancelled twice. -/
def repeal : List Moment :=
  [.subscribed ⟨"fire", "bell"⟩ "first", .subscribed ⟨"fire", "bell"⟩ "second",
    .unsubscribed "first", .unsubscribed "first"]

/-- A token that is used once more cancels the subscription of another token: the bell should be
called and is not. -/
theorem emission_misses_standing :
    Arises idle blank (blank.replay (repeal ++ [.emitted alarm])) ∧
      callsFor 0 (blank.replay (repeal ++ [.emitted alarm])).journal = [] ∧
      (Roster.ofMoments repeal).due alarm = [⟨"bell", alarm⟩] := by
  have hprepared : Arises idle blank (blank.replay repeal) :=
    ((((Arises.fresh blank_fresh).subscribe "fire" "bell" "first").subscribe
      "fire" "bell" "second").unsubscribe "first" rfl).unsubscribe "first" rfl
  have hwithin : within idle 1 (blank.replay repeal) (.emit alarm) =
      some (blank.replay (repeal ++ [.emitted alarm])) := rfl
  exact ⟨hprepared.emit (runs_emit_of_within hwithin), rfl, by decide⟩

end Bus

end GraphWorkbench
