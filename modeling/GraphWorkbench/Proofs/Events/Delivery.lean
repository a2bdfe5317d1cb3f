import Mathlib.Data.List.DropRight
import GraphWorkbench.Proofs.Events.Cascade
/-!
Who is called. A cascade is a list of moments, and the bus it leaves is what these moments make of
the bus it began at. Each emission among them is delivered to those who were subscribed when it
began, each once and in their order, whatever happens to the subscriptions meanwhile. The proof goes by
induction on the cascade. What a task owes to the emissions that began before it is part of the
invariant: to the one that it delivers the handlers that are left, and to all others nothing.
-/
namespace GraphWorkbench

/-- The call that is made at a moment for a given emission. -/
def Moment.callFor? (emission : Nat) : Moment → Option Delivery
  | .called n d => if n = emission then some d else none
  | _ => none

/-- The calls for an emission, in order. -/
def callsFor (emission : Nat) (moments : List Moment) : List Delivery :=
  moments.filterMap (Moment.callFor? emission)

/-- The events that are emitted, in order. -/
def eventsOf (moments : List Moment) : List Event := moments.filterMap Moment.event?

theorem callsFor_append (emission : Nat) (a b : List Moment) :
    callsFor emission (a ++ b) = callsFor emission a ++ callsFor emission b :=
  List.filterMap_append

theorem mem_callsFor {emission : Nat} {moments : List Moment} {d : Delivery} :
    d ∈ callsFor emission moments ↔ .called emission d ∈ moments := by
  rw [callsFor, List.mem_filterMap]
  constructor
  · rintro ⟨m, hm, hcall⟩
    cases m with
    | called n d' =>
      simp only [Moment.callFor?, Option.ite_none_right_eq_some, Option.some.injEq] at hcall
      obtain ⟨rfl, rfl⟩ := hcall
      exact hm
    | _ => cases hcall
  · intro h
    exact ⟨_, h, if_pos rfl⟩

theorem eventsOf_cons (m : Moment) (moments : List Moment) :
    eventsOf (m :: moments) = m.event?.toList ++ eventsOf moments := by
  rw [eventsOf, List.filterMap_cons]
  cases m.event? <;> rfl

namespace Bus

/-- What a list of moments makes of a bus. -/
def replay (b : Bus) (moments : List Moment) : Bus := moments.foldl note b

variable {behaviour : Behaviour} {b b' : Bus}

theorem replay_append (b : Bus) (before after : List Moment) :
    b.replay (before ++ after) = (b.replay before).replay after := List.foldl_append

theorem replay_append_singleton (b : Bus) (moments : List Moment) (m : Moment) :
    b.replay (moments ++ [m]) = (b.replay moments).note m := List.foldl_append

theorem journal_note (b : Bus) (m : Moment) : (b.note m).journal = b.journal ++ [m] := by
  cases m with
  | unsubscribed token =>
    rw [note]
    split <;> rfl
  | _ => rfl

theorem journal_replay (b : Bus) (moments : List Moment) :
    (b.replay moments).journal = b.journal ++ moments := by
  induction moments generalizing b with
  | nil => exact (List.append_nil _).symm
  | cons m moments ih =>
    calc ((b.note m).replay moments).journal = b.journal ++ [m] ++ moments := by
          rw [ih, journal_note]
      _ = b.journal ++ m :: moments := by rw [List.append_assoc, List.singleton_append]

/-- The emissions of a bus are numbered on without a gap. -/
theorem emissions_replay (b : Bus) (moments : List Moment) :
    (b.replay moments).emissions = b.emissions ++ eventsOf moments := by
  rw [emissions, journal_replay, List.filterMap_append]
  rfl

theorem emissions_note (b : Bus) (m : Moment) :
    (b.note m).emissions = b.emissions ++ m.event?.toList := by
  have h := emissions_replay b [m]
  rwa [eventsOf_cons, eventsOf, List.filterMap_nil, List.append_nil] at h

theorem emissions_lt_note_emitted (b : Bus) (e : Event) :
    b.emissions.length < (b.note (.emitted e)).emissions.length := by
  rw [emissions_note, List.length_append]
  exact Nat.lt_succ_self _

theorem emissions_le_replay (b : Bus) (moments : List Moment) :
    b.emissions.length ≤ (b.replay moments).emissions.length := by
  rw [emissions_replay, List.length_append]
  exact Nat.le_add_right ..

theorem log_note (b : Bus) (m : Moment) : (b.note m).log = b.log.recordAll m.event?.toList := by
  cases m with
  | unsubscribed token =>
    rw [note]
    split <;> rfl
  | _ => rfl

theorem log_replay (b : Bus) (moments : List Moment) :
    (b.replay moments).log = b.log.recordAll (eventsOf moments) := by
  induction moments generalizing b with
  | nil => rfl
  | cons m moments ih =>
    calc ((b.note m).replay moments).log
        = (b.log.recordAll m.event?.toList).recordAll (eventsOf moments) := by rw [ih, log_note]
      _ = b.log.recordAll (eventsOf (m :: moments)) := by
        rw [eventsOf_cons, EventLog.recordAll_append]

/-- The log shows the newest events in the order in which their emissions began, as many as it
holds. -/
theorem entries_log_replay_emitted (b : Bus) (e : Event) (moments : List Moment) :
    (b.replay (.emitted e :: moments)).log.entries =
      (b.log.entries ++ e :: eventsOf moments).rtake b.log.limit := by
  have hevents : eventsOf (.emitted e :: moments) = e :: eventsOf moments := rfl
  rw [List.rtake_eq_reverse_take_reverse, List.reverse_append, EventLog.entries, EventLog.entries,
    List.reverse_reverse, log_replay, hevents, EventLog.newest_recordAll_cons]

/-- Those who are subscribed to an event, each with the call that is due to it. -/
def due (b : Bus) (e : Event) : List Delivery := (b.handlersOf e.name).map (⟨·, e⟩)

/-- Each emission among the moments is delivered to all who were subscribed when it began. -/
def Delivers (b : Bus) (moments : List Moment) : Prop :=
  ∀ before e after, moments = before ++ .emitted e :: after →
    callsFor (b.replay before).emissions.length moments = (b.replay before).due e

/-- Moments that came about by the rule, within emissions to which these calls are owed. No call is
made for an emission that has not begun. -/
structure Kept (b : Bus) (owed : Nat → List Delivery) (moments : List Moment) : Prop where
  delivers : b.Delivers moments
  outer : ∀ emission < b.emissions.length, callsFor emission moments = owed emission
  begun : ∀ before emission d after, moments = before ++ .called emission d :: after →
    emission < (b.replay before).emissions.length

/-- A moment of two lists end to end is a moment of the first or of the second. -/
theorem append_eq_append_cons {ms ms' before after : List Moment} {m : Moment}
    (h : ms ++ ms' = before ++ m :: after) :
    (∃ between, ms = before ++ m :: between ∧ after = between ++ ms') ∨
      ∃ between, before = ms ++ between ∧ ms' = between ++ m :: after := by
  obtain ⟨between, hbefore, hms'⟩ | ⟨between, hms, hafter⟩ := List.append_eq_append_iff.1 h
  · exact .inr ⟨between, hbefore, hms'⟩
  · cases between with
    | nil => exact .inr ⟨[], by simpa using hms.symm, hafter.symm⟩
    | cons m' between =>
      obtain ⟨rfl, rfl⟩ := List.cons.inj hafter
      exact .inl ⟨between, hms, rfl⟩

variable {owed owed' : Nat → List Delivery} {moments moments' : List Moment}

theorem Kept.callsFor_eq_nil (h : b.Kept owed moments) {emission : Nat}
    (hemission : (b.replay moments).emissions.length ≤ emission) :
    callsFor emission moments = [] := by
  apply List.eq_nil_iff_forall_not_mem.2
  intro d hd
  obtain ⟨before, after, hmoments⟩ := List.append_of_mem (mem_callsFor.1 hd)
  have hbegun := h.begun before emission d after hmoments
  rw [hmoments, replay_append] at hemission
  have hle := emissions_le_replay (b.replay before) (.called emission d :: after)
  omega

/-- What keeps to the rule and is followed by what keeps to the rule keeps to it, if the second part
owes nothing to emissions of the first. -/
theorem Kept.append (h : b.Kept owed moments) (h' : (b.replay moments).Kept owed' moments')
    (hown : ∀ emission, b.emissions.length ≤ emission → owed' emission = []) :
    b.Kept (fun emission => owed emission ++ owed' emission) (moments ++ moments') where
  delivers before e after hsplit := by
    obtain ⟨between, hmoments, -⟩ | ⟨between, hbefore, hmoments'⟩ := append_eq_append_cons hsplit
    · -- an emission of the first part is nothing to the second
      have hlt : (b.replay before).emissions.length < (b.replay moments).emissions.length := by
        rw [hmoments, replay_append, emissions_replay (b.replay before)]
        simp [eventsOf, Moment.event?]
      have hnothing : callsFor (b.replay before).emissions.length moments' = [] := by
        rw [h'.outer _ hlt, hown _ (emissions_le_replay b before)]
      rw [callsFor_append, hnothing, List.append_nil, h.delivers before e between hmoments]
    · -- an emission of the second part has not begun in the first
      have hnothing : callsFor (b.replay before).emissions.length moments = [] := by
        apply h.callsFor_eq_nil
        rw [hbefore, replay_append]
        exact emissions_le_replay ..
      rw [callsFor_append, hnothing, List.nil_append, hbefore, replay_append]
      exact h'.delivers between e after hmoments'
  outer emission hemission := by
    have hemission' := Nat.lt_of_lt_of_le hemission (emissions_le_replay b moments)
    rw [callsFor_append, h.outer emission hemission, h'.outer emission hemission']
  begun before emission d after hsplit := by
    obtain ⟨between, hmoments, -⟩ | ⟨between, rfl, hmoments'⟩ := append_eq_append_cons hsplit
    · exact h.begun before emission d between hmoments
    · rw [replay_append]
      exact h'.begun between emission d after hmoments'

theorem kept_nil (b : Bus) : b.Kept (fun _ => []) [] where
  delivers before e after h := by simp at h
  outer _ _ := rfl
  begun before emission d after h := by simp at h

/-- A moment at which nothing is emitted goes before what keeps to the rule. -/
theorem Kept.cons {m : Moment} (hevent : m.event? = none)
    (hbegun : ∀ emission d, m = .called emission d → emission < b.emissions.length)
    (h : (b.note m).Kept owed moments)
    (hown : ∀ emission, b.emissions.length ≤ emission → owed emission = []) :
    b.Kept (fun emission => callsFor emission [m] ++ owed emission) (m :: moments) := by
  have hone : b.Kept (callsFor · [m]) [m] := {
    delivers := fun before e after hsplit => by
      cases before with
      | nil => cases hsplit; cases hevent
      | cons _ before => simp at hsplit
    outer := fun _ _ => rfl
    begun := fun before emission d after hsplit => by
      cases before with
      | nil => exact hbegun emission d (List.cons.inj hsplit).1
      | cons _ before => simp at hsplit }
  exact hone.append h hown

/-- A change of subscriptions calls nobody. -/
theorem Kept.cons_change {m : Moment} (hevent : m.event? = none) (hcall : m.delivery? = none)
    (h : (b.note m).Kept (fun _ => []) moments) : b.Kept (fun _ => []) (m :: moments) := by
  have hcalls (emission : Nat) : callsFor emission [m] ++ [] = [] := by
    cases m <;> first | rfl | cases hcall
  have hkept := h.cons hevent (fun _ _ hm => by subst hm; cases hcall) fun _ _ => rfl
  exact (funext hcalls) ▸ hkept

/-- What keeps to the rule when the calls are owed that are due to an event keeps to it with the
emission of that event before it. -/
theorem kept_emitted {e : Event}
    (h : (b.note (.emitted e)).Kept
      (fun emission => if b.emissions.length = emission then b.due e else []) moments) :
    b.Kept (fun _ => []) (.emitted e :: moments) where
  delivers before e' after hsplit := by
    cases before with
    | nil =>
      obtain ⟨hhead, rfl⟩ := List.cons.inj hsplit
      cases hhead
      exact (h.outer _ (emissions_lt_note_emitted b e)).trans (if_pos rfl)
    | cons m before =>
      obtain ⟨rfl, hrest⟩ := List.cons.inj hsplit
      exact h.delivers before e' after hrest
  outer emission hemission := by
    have hbegun : emission < (b.note (.emitted e)).emissions.length :=
      Nat.lt_of_lt_of_le hemission (emissions_le_replay b [.emitted e])
    exact (h.outer emission hbegun).trans (if_neg (Nat.ne_of_gt hemission))
  begun before emission d after hsplit := by
    cases before with
    | nil => cases hsplit
    | cons m before =>
      obtain ⟨rfl, hrest⟩ := List.cons.inj hsplit
      exact h.begun before emission d after hrest

/-- What a task owes to the emissions that began before it. -/
def Task.debt : Task → Nat → List Delivery
  | .deliver n e handlers => fun emission => if n = emission then handlers.map (⟨·, e⟩) else []
  | _ => fun _ => []

/-- A delivery is under an emission that has begun. -/
def Task.Under (b : Bus) : Task → Prop
  | .deliver emission _ _ => emission < b.emissions.length
  | _ => True

/-- A call, what the handler does and the delivery to the others together are the delivery. -/
theorem Kept.call {emission : Nat} {e : Event} {handler : String} {handlers : List String}
    {inner rest : List Moment} (hunder : emission < b.emissions.length)
    (hinner : (b.note (.called emission ⟨handler, e⟩)).Kept (fun _ => []) inner)
    (hrest : ((b.note (.called emission ⟨handler, e⟩)).replay inner).Kept
      (Task.deliver emission e handlers).debt rest) :
    b.Kept (Task.deliver emission e (handler :: handlers)).debt
      (.called emission ⟨handler, e⟩ :: (inner ++ rest)) := by
  have hown (n : Nat) (hn : b.emissions.length ≤ n) :
      (Task.deliver emission e handlers).debt n = [] :=
    if_neg (Nat.ne_of_lt (Nat.lt_of_lt_of_le hunder hn))
  have hafter : (b.note (.called emission ⟨handler, e⟩)).Kept
      (Task.deliver emission e handlers).debt (inner ++ rest) :=
    hinner.append hrest fun n hn => hown n
      (Nat.le_trans (emissions_le_replay b [.called emission ⟨handler, e⟩]) hn)
  have hdebt : (Task.deliver emission e (handler :: handlers)).debt =
      fun n => callsFor n [.called emission ⟨handler, e⟩] ++
        (Task.deliver emission e handlers).debt n := by
    funext n
    by_cases h : emission = n <;> simp [Task.debt, callsFor, Moment.callFor?, h]
  rw [hdebt]
  exact hafter.cons rfl (fun n d h => by cases h; exact hunder) hown

/-- What comes of a task is a list of moments that keeps to the rule. -/
theorem Runs.kept {t : Task} (h : Runs behaviour b t b') (hunder : t.Under b) :
    ∃ moments, b' = b.replay moments ∧ b.Kept t.debt moments := by
  induction h with
  | @emit b b' e _ ih =>
    obtain ⟨moments, rfl, hkept⟩ := ih (emissions_lt_note_emitted b e)
    exact ⟨.emitted e :: moments, rfl, kept_emitted hkept⟩
  | @delivered b emission e =>
    have hdebt : (Task.deliver emission e []).debt = fun _ => [] := by
      funext n
      exact ite_self _
    exact ⟨[], rfl, hdebt ▸ kept_nil b⟩
  | @call b called b' b'' emission e handler handlers hcalled _ _ ihcall ihrest =>
    obtain ⟨inner, rfl, hinner⟩ := ihcall trivial
    have hlater : b.emissions.length ≤ (called.replay inner).emissions.length := by
      rw [hcalled]
      exact emissions_le_replay b (.called emission ⟨handler, e⟩ :: inner)
    obtain ⟨rest, rfl, hrest⟩ := ihrest (Nat.lt_of_lt_of_le hunder hlater)
    subst hcalled
    exact ⟨.called emission ⟨handler, e⟩ :: (inner ++ rest), (replay_append _ inner rest).symm,
      Kept.call hunder hinner hrest⟩
  | done => exact ⟨[], rfl, kept_nil _⟩
  | fail => exact ⟨[], rfl, kept_nil _⟩
  | subscribe hsubscribed _ ih =>
    subst hsubscribed
    obtain ⟨moments, rfl, hkept⟩ := ih trivial
    exact ⟨_ :: moments, rfl, hkept.cons_change rfl rfl⟩
  | unsubscribe hunsubscribed _ ih =>
    obtain ⟨moments, rfl, hkept⟩ := ih trivial
    obtain rfl := unsubscribe_eq_ok hunsubscribed
    exact ⟨_ :: moments, rfl, hkept.cons_change rfl rfl⟩
  | unknown => exact ⟨[], rfl, kept_nil _⟩
  | nested _ _ ihemit ihnext =>
    obtain ⟨moments, rfl, hkept⟩ := ihemit trivial
    obtain ⟨moments', rfl, hkept'⟩ := ihnext trivial
    exact ⟨moments ++ moments', (replay_append ..).symm, hkept.append hkept' fun _ _ => rfl⟩

/-- Every call is made for an emission of its event that began before it. -/
def Answers (b : Bus) (moments : List Moment) : Prop :=
  ∀ before emission d after, moments = before ++ .called emission d :: after →
    ∃ earlier between, before = earlier ++ .emitted d.event :: between ∧
      emission = (b.replay earlier).emissions.length

theorem exists_emitted {emission : Nat} (hold : b.emissions.length ≤ emission)
    (hnew : emission < (b.replay moments).emissions.length) :
    ∃ earlier e between, moments = earlier ++ .emitted e :: between ∧
      emission = (b.replay earlier).emissions.length := by
  induction moments generalizing b with
  | nil => exact absurd hnew (Nat.not_lt.2 hold)
  | cons m moments ih =>
    by_cases hfirst : (b.note m).emissions.length ≤ emission
    · obtain ⟨earlier, e, between, rfl, hemission⟩ := ih hfirst hnew
      exact ⟨m :: earlier, e, between, rfl, hemission⟩
    · -- the emission begins at the first moment
      rw [emissions_note, List.length_append] at hfirst
      cases m with
      | emitted e =>
        have hemission : emission = b.emissions.length :=
          Nat.le_antisymm (Nat.le_of_lt_succ (Nat.lt_of_not_le hfirst)) hold
        exact ⟨[], e, moments, rfl, hemission⟩
      | _ => exact absurd hold hfirst

theorem Kept.answers (h : b.Kept (fun _ => []) moments) : b.Answers moments := by
  intro before emission d after hsplit
  have hcalled : d ∈ callsFor emission moments := by
    rw [mem_callsFor, hsplit]
    exact List.mem_append_right _ List.mem_cons_self
  have hold : b.emissions.length ≤ emission := by
    by_contra hlt
    rw [h.outer emission (Nat.lt_of_not_le hlt)] at hcalled
    cases hcalled
  obtain ⟨earlier, e, between, hbefore, hemission⟩ :=
    exists_emitted hold (h.begun before emission d after hsplit)
  have hdue := h.delivers earlier e (between ++ .called emission d :: after) (by
    rw [hsplit, hbefore, List.append_assoc, List.cons_append])
  rw [← hemission] at hdue
  rw [hdue, due, List.mem_map] at hcalled
  obtain ⟨handler, -, rfl⟩ := hcalled
  exact ⟨earlier, between, hbefore, hemission⟩

/-- An emission whose cascade comes to an end gives back its event, and the same comes of it when
handlers stop where they fail. Each emission in the cascade calls those who were subscribed when it
began, each once and in their order, and nobody else is called. At every moment the log shows the
newest events in the order in which their emissions began. -/
theorem emit_delivers {e : Event} (h : Runs behaviour b (.emit e) b') :
    (∃ depth, ∀ n, depth ≤ n → emitWithin behaviour n b e = some (e, b') ∧
      emitWithin (fun handler e b => (behaviour handler e b).calm) n b e = some (e, b')) ∧
    ∃ moments, b' = b.replay (.emitted e :: moments) ∧
      b.Delivers (.emitted e :: moments) ∧ b.Answers (.emitted e :: moments) ∧
      ∀ before, before <+: moments → (b.replay (.emitted e :: before)).log.entries =
        (b.log.entries ++ e :: eventsOf before).rtake b.log.limit := by
  refine ⟨?_, ?_⟩
  · obtain ⟨depth, hdepth⟩ := runs_emit_iff.1 h
    refine ⟨depth, fun n hn => ⟨hdepth n hn, ?_⟩⟩
    rw [emitWithin_calm]
    exact hdepth n hn
  · obtain @⟨_, _, _, hdeliver⟩ := h
    obtain ⟨moments, rfl, hmoments⟩ := hdeliver.kept (emissions_lt_note_emitted b e)
    have hkept : b.Kept (fun _ => []) (.emitted e :: moments) := kept_emitted hmoments
    exact ⟨moments, rfl, hkept.delivers, hkept.answers,
      fun before _ => entries_log_replay_emitted b e before⟩

/-- At the first call the breaker cancels the second subscription, brings in a latecomer, emits once
more and fails. -/
def rowdy : Behaviour
  | "breaker", ⟨name, .null⟩, _ =>
    .unsubscribe "second" fun _ => .subscribe name "latecomer" "third" fun _ =>
      .emit ⟨name, .bool true⟩ fun _ _ => .fail (.malformed "the handler failed")
  | _, _, _ => .done

/-- A bus with two handlers of one event, whose log holds two events. -/
def crowd : Bus :=
  Bus.subscribe (Bus.subscribe { log := { limit := 2 } } "fire" "breaker" "first")
    "fire" "listener" "second"

def commotion : List Moment :=
  [.emitted ⟨"fire", .null⟩, .called 0 ⟨"breaker", ⟨"fire", .null⟩⟩, .unsubscribed "second",
    .subscribed ⟨"fire", "latecomer"⟩ "third", .emitted ⟨"fire", .bool true⟩,
    .called 1 ⟨"breaker", ⟨"fire", .bool true⟩⟩, .called 1 ⟨"latecomer", ⟨"fire", .bool true⟩⟩,
    .called 0 ⟨"listener", ⟨"fire", .null⟩⟩]

/-- The listener is called for the first emission though it is cancelled by then, and the latecomer
only for the second one. -/
theorem emit_delivers_rowdy :
    Runs rowdy crowd (.emit ⟨"fire", .null⟩) (crowd.replay commotion) ∧
      crowd.Delivers commotion ∧ crowd.Answers commotion := by
  have hwithin : within rowdy 2 crowd (.emit ⟨"fire", .null⟩) = some (crowd.replay commotion) := rfl
  have hruns := runs_emit_of_within hwithin
  obtain ⟨-, moments, hreplay, hdelivers, hanswers, -⟩ := emit_delivers hruns
  have hmoments : commotion = .emitted ⟨"fire", .null⟩ :: moments := by
    have hjournal := congrArg journal hreplay
    rw [journal_replay, journal_replay] at hjournal
    exact List.append_cancel_left hjournal
  refine ⟨hruns, ?_⟩
  rw [hmoments]
  exact ⟨hdelivers, hanswers⟩

end Bus

end GraphWorkbench
