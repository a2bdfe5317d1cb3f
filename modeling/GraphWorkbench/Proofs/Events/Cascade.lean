import GraphWorkbench.Events.Bus
/-!
Cascades of calls. A handler may emit while an event is delivered to it, and that calls handlers
again. `Runs` describes the cascades that come to an end, however deeply emissions are nested in
them, without a bound; given depth enough the bus carries out just these. Whether handlers fail in
them is of no account.
-/
namespace GraphWorkbench

/-- The same program, but done where it would fail. -/
def Program.calm : Program → Program
  | .done => .done
  | .fail _ => .done
  | .subscribe event handler token next => .subscribe event handler token fun b => (next b).calm
  | .unsubscribe token next => .unsubscribe token fun b => (next b).calm
  | .emit e next => .emit e fun told b => (next told b).calm

namespace Bus

/-- What can be left to do at a bus: to emit an event, to deliver one to handlers under the number
of its emission, or to go on with a program. -/
inductive Task where
  | emit (e : Event)
  | deliver (emission : Nat) (e : Event) (handlers : List String)
  | perform (p : Program)

/-- A task can be carried out to its end on the first bus, and that leaves the second. -/
inductive Runs (behaviour : Behaviour) : Bus → Task → Bus → Prop where
  | emit {b b' e} :
      Runs behaviour (b.note (.emitted e))
        (.deliver b.emissions.length e (b.handlersOf e.name)) b' →
      Runs behaviour b (.emit e) b'
  | delivered {b emission e} : Runs behaviour b (.deliver emission e []) b
  | call {b called b' b'' emission e handler handlers} :
      called = b.note (.called emission ⟨handler, e⟩) →
      Runs behaviour called (.perform (behaviour handler e called)) b' →
      Runs behaviour b' (.deliver emission e handlers) b'' →
      Runs behaviour b (.deliver emission e (handler :: handlers)) b''
  | done {b} : Runs behaviour b (.perform .done) b
  | fail {b f} : Runs behaviour b (.perform (.fail f)) b
  | subscribe {b subscribed b' event handler token next} :
      b.subscribe event handler token = subscribed →
      Runs behaviour subscribed (.perform (next subscribed)) b' →
      Runs behaviour b (.perform (.subscribe event handler token next)) b'
  | unsubscribe {b unsubscribed b' token next} :
      b.unsubscribe token = .ok unsubscribed →
      Runs behaviour unsubscribed (.perform (next unsubscribed)) b' →
      Runs behaviour b (.perform (.unsubscribe token next)) b'
  | unknown {b token f next} : b.unsubscribe token = .error f →
      Runs behaviour b (.perform (.unsubscribe token next)) b
  | nested {b b' b'' e next} :
      Runs behaviour b (.emit e) b' →
      Runs behaviour b' (.perform (next e b')) b'' →
      Runs behaviour b (.perform (.emit e next)) b''

variable {behaviour : Behaviour} {b b' : Bus}

theorem unsubscribe_eq_ok {token : String} (h : b.unsubscribe token = .ok b') :
    b' = b.note (.unsubscribed token) := by
  rw [unsubscribe] at h
  split at h
  · exact (Except.ok.inj h).symm
  · cases h

/-- Carries out a task, with emissions nested up to a bound. -/
def within (behaviour : Behaviour) (depth : Nat) (b : Bus) : Task → Option Bus
  | .emit e => (emitWithin behaviour depth b e).map Prod.snd
  | .deliver emission e handlers =>
    handlers.foldlM (call behaviour (emitWithin behaviour depth) emission e) b
  | .perform p => (run (emitWithin behaviour depth) b p).map Prod.fst

theorem emitWithin_succ (depth : Nat) (e : Event) :
    emitWithin behaviour (depth + 1) b e =
      (within behaviour depth (b.note (.emitted e))
        (.deliver b.emissions.length e (b.handlersOf e.name))).map (e, ·) := by
  rw [emitWithin, within]
  exact (Option.map_eq_bind ..).symm

theorem within_emit_succ (depth : Nat) (e : Event) :
    within behaviour (depth + 1) b (.emit e) =
      within behaviour depth (b.note (.emitted e))
        (.deliver b.emissions.length e (b.handlersOf e.name)) := by
  rw [within, emitWithin_succ, Option.map_map]
  exact congrFun Option.map_id _

/-- An emission gives back the event that was emitted. -/
theorem emitWithin_eq (depth : Nat) (e : Event) :
    emitWithin behaviour depth b e = (within behaviour depth b (.emit e)).map (e, ·) := by
  cases depth with
  | zero => rfl
  | succ depth => rw [emitWithin_succ, within_emit_succ]

theorem call_eq (depth emission : Nat) (e : Event) (handler : String) :
    call behaviour (emitWithin behaviour depth) emission e b handler =
      within behaviour depth (b.note (.called emission ⟨handler, e⟩))
        (.perform (behaviour handler e (b.note (.called emission ⟨handler, e⟩)))) := rfl

/-- A cascade that comes to an end is carried out by the bus at every depth from some on. -/
theorem Runs.within_eq {t : Task} (h : Runs behaviour b t b') :
    ∃ depth, ∀ n, depth ≤ n → within behaviour n b t = some b' := by
  induction h with
  | @emit b b' e _ ih =>
    obtain ⟨depth, hdepth⟩ := ih
    refine ⟨depth + 1, fun n hn => ?_⟩
    obtain ⟨n, rfl⟩ := Nat.exists_eq_add_of_lt hn
    rw [within_emit_succ]
    exact hdepth (depth + n) (Nat.le_add_right ..)
  | delivered => exact ⟨0, fun _ _ => rfl⟩
  | call hcalled _ _ ihcall ihrest =>
    obtain ⟨depth, hdepth⟩ := ihcall
    obtain ⟨depth', hdepth'⟩ := ihrest
    refine ⟨max depth depth', fun n hn => ?_⟩
    have hhead := hdepth n (Nat.le_trans (Nat.le_max_left ..) hn)
    have htail := hdepth' n (Nat.le_trans (Nat.le_max_right ..) hn)
    subst hcalled
    rw [within, List.foldlM_cons, call_eq, hhead]
    exact htail
  | done => exact ⟨0, fun _ _ => rfl⟩
  | fail => exact ⟨0, fun _ _ => rfl⟩
  | subscribe hsubscribed _ ih =>
    obtain ⟨depth, hdepth⟩ := ih
    subst hsubscribed
    exact ⟨depth, hdepth⟩
  | unsubscribe hunsubscribed _ ih =>
    obtain ⟨depth, hdepth⟩ := ih
    refine ⟨depth, fun n hn => ?_⟩
    rw [within, run, hunsubscribed]
    exact hdepth n hn
  | unknown hunknown =>
    refine ⟨0, fun n _ => ?_⟩
    rw [within, run, hunknown]
    rfl
  | nested _ _ ihemit ihnext =>
    obtain ⟨depth, hdepth⟩ := ihemit
    obtain ⟨depth', hdepth'⟩ := ihnext
    refine ⟨max depth depth', fun n hn => ?_⟩
    have hemit := hdepth n (Nat.le_trans (Nat.le_max_left ..) hn)
    have hnext := hdepth' n (Nat.le_trans (Nat.le_max_right ..) hn)
    rw [within, run, emitWithin_eq, hemit]
    exact hnext

section
variable {depth : Nat}
  (hemits : ∀ {b b' e}, within behaviour depth b (.emit e) = some b' →
    Runs behaviour b (.emit e) b')

include hemits in
theorem runs_perform_of_within {p : Program}
    (h : within behaviour depth b (.perform p) = some b') : Runs behaviour b (.perform p) b' := by
  induction p generalizing b with
  | done => exact Option.some.inj h ▸ .done
  | fail f => exact Option.some.inj h ▸ .fail
  | subscribe event handler token next ih => exact .subscribe rfl (ih _ h)
  | unsubscribe token next ih =>
    rw [within, run] at h
    split at h
    · rename_i unsubscribed hunsubscribed
      exact .unsubscribe hunsubscribed (ih _ h)
    · rename_i f hunknown
      exact Option.some.inj h ▸ .unknown hunknown
  | emit e next ih =>
    rw [within, run, emitWithin_eq] at h
    cases hemit : within behaviour depth b (.emit e) with
    | none => simp [hemit] at h
    | some told =>
      rw [hemit] at h
      exact .nested (hemits hemit) (ih _ _ h)

include hemits in
theorem runs_deliver_of_within {emission : Nat} {e : Event} {handlers : List String}
    (h : within behaviour depth b (.deliver emission e handlers) = some b') :
    Runs behaviour b (.deliver emission e handlers) b' := by
  induction handlers generalizing b with
  | nil => exact Option.some.inj h ▸ .delivered
  | cons handler handlers ih =>
    rw [within, List.foldlM_cons, call_eq] at h
    obtain ⟨middle, hcall, hrest⟩ := Option.bind_eq_some_iff.1 h
    exact .call rfl (runs_perform_of_within hemits hcall) (ih hrest)

end

/-- What the bus carries out at some depth comes to an end. -/
theorem runs_emit_of_within {depth : Nat} {e : Event}
    (h : within behaviour depth b (.emit e) = some b') : Runs behaviour b (.emit e) b' := by
  induction depth generalizing b b' e with
  | zero => cases h
  | succ depth ih =>
    rw [within_emit_succ] at h
    exact .emit (runs_deliver_of_within ih h)

/-- The emissions whose cascade comes to an end are those that the bus carries out at every depth
from some on, and each gives back its event. -/
theorem runs_emit_iff {e : Event} :
    Runs behaviour b (.emit e) b' ↔
      ∃ depth, ∀ n, depth ≤ n → emitWithin behaviour n b e = some (e, b') := by
  have heq (n : Nat) : emitWithin behaviour n b e = some (e, b') ↔
      within behaviour n b (.emit e) = some b' := by simp [emitWithin_eq]
  simp only [heq]
  exact ⟨Runs.within_eq, fun ⟨depth, h⟩ => runs_emit_of_within (h depth (Nat.le_refl _))⟩

theorem run_calm (emit : Bus → Event → Option (Event × Bus)) (p : Program) :
    (run emit b p.calm).map Prod.fst = (run emit b p).map Prod.fst := by
  induction p generalizing b with
  | done => rfl
  | fail => rfl
  | subscribe event handler token next ih => exact ih _
  | unsubscribe token next ih =>
    rw [Program.calm, run, run]
    split
    · exact ih _
    · rfl
  | emit e next ih =>
    rw [Program.calm, run, run]
    split
    · exact ih _ _
    · rfl

/-- Nothing else comes of an emission when handlers fail in it than when they stop at that point. -/
theorem emitWithin_calm (depth : Nat) (e : Event) :
    emitWithin (fun handler e b => (behaviour handler e b).calm) depth b e =
      emitWithin behaviour depth b e := by
  induction depth generalizing b e with
  | zero => rfl
  | succ depth ih =>
    have hemit : emitWithin (fun handler e b => (behaviour handler e b).calm) depth =
        emitWithin behaviour depth := by
      funext b e
      exact ih e
    have hcall : call (fun handler e b => (behaviour handler e b).calm)
        (emitWithin (fun handler e b => (behaviour handler e b).calm) depth) b.emissions.length e =
          call behaviour (emitWithin behaviour depth) b.emissions.length e := by
      funext b handler
      rw [hemit]
      exact run_calm ..
    rw [emitWithin, emitWithin, hcall]

end Bus

end GraphWorkbench
