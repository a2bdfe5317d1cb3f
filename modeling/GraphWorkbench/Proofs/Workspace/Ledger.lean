import Mathlib.Data.List.Induction
import GraphWorkbench.Proofs.Stix.Ledger
import GraphWorkbench.Proofs.Workspace.Requests
/-!
What a session tells of its commits while presets come and go. Numbers start again from one under
each preset that is taken into use, and the log goes on, so they rise in a stretch of moves under
one preset and not from stretch to stretch. Whoever keeps the document of the highest number has the
right one as long as no stretch before came to as high a number.
-/
namespace GraphWorkbench

open Notice

namespace Notice

/-- Takes a commit in place of one that has a lower number. -/
def keep (kept : Option (Nat × Document)) (c : Nat × Document) : Option (Nat × Document) :=
  match kept with
  | none => some c
  | some k => if k.1 < c.1 then some c else some k

/-- What a subscriber has in the end who keeps the commit of the highest number. -/
def highest? (told : List Notice) : Option (Nat × Document) := (changes told).foldl keep none

theorem mem_of_foldl_keep {commits : List (Nat × Document)} {k : Nat × Document}
    (h : commits.foldl keep none = some k) : k ∈ commits := by
  induction commits using List.reverseRecOn generalizing k with
  | nil => simp at h
  | append_singleton before c ih =>
    rw [List.foldl_append, List.foldl_cons, List.foldl_nil] at h
    have hlast : c ∈ before ++ [c] := List.mem_append_right before (List.mem_singleton_self c)
    -- what is kept in the end is the last commit or what was kept before it
    cases hbefore : before.foldl keep none with
    | none =>
      rw [hbefore] at h
      obtain rfl : c = k := Option.some.inj h
      exact hlast
    | some first =>
      simp only [hbefore, keep] at h
      split at h
      next =>
        obtain rfl := Option.some.inj h
        exact hlast
      next =>
        obtain rfl := Option.some.inj h
        exact List.mem_append_left [c] (ih hbefore)

/-- The last commit is the one to keep when none before it has as high a number. -/
theorem highest?_of_last {told : List Notice} {before : List (Nat × Document)}
    {c : Nat × Document} (last : changes told = before ++ [c]) (top : ∀ k ∈ before, k.1 < c.1) :
    highest? told = some c := by
  rw [highest?, last, List.foldl_append]
  cases hbefore : before.foldl keep none with
  | none => rfl
  | some k =>
    have hlt : k.1 < c.1 := top k (mem_of_foldl_keep hbefore)
    simp [keep, hlt]

end Notice

namespace Workspace.Session

/-- The move that a move comes down to: a request stands for what it asks for. -/
def Move.resolve? (settings : Settings) : Move → Option Move
  | .request r => ask? settings r
  | m => some m

/-- A move takes a preset into use. -/
def switches (s : Session) (m : Move) : Bool :=
  match m.resolve? s.settings with
  | some (.usePreset p) => (s.usePreset p).isOk
  | _ => false

/-- The numbers that were come to under the presets that a run leaves for others, in order. -/
def left (s : Session) : List Move → List Nat
  | [] => []
  | m :: rest => (if s.switches m then [s.store.revision] else []) ++ (s.move m).left rest

variable {s s' : Session} {m m' : Move} {moves rest : List Move} {t : Timeline}
  {a b told earlier current : List Notice}

theorem run_append : s.run (moves ++ rest) = (s.run moves).run rest := List.foldl_append

theorem left_append : s.left (moves ++ rest) = s.left moves ++ (s.run moves).left rest := by
  induction moves generalizing s with
  | nil => rfl
  | cons m before ih =>
    rw [List.cons_append, left, left, ih, List.append_assoc]
    rfl

theorem asked_ne_request {settings : Settings} {r r' : Request} {endpoint : Endpoint} :
    asked settings r endpoint ≠ some (.request r') := by
  cases endpoint with
  | load | replaceDocument | mutations =>
    rw [asked]
    split <;> simp
  | importBundle => cases hupload : r.upload? <;> simp [asked, hupload]
  | undo | redo | health | presets | document | inference | coverage | history => simp [asked]

/-- What a move comes down to is no request any more. -/
theorem resolve?_ne_request {settings : Settings} {r : Request}
    (h : m.resolve? settings = some m') : m' ≠ .request r := by
  rintro rfl
  cases m with
  | request r' =>
    rw [Move.resolve?, ask?] at h
    split at h
    next => exact asked_ne_request h
    next => simp at h
  | usePreset | load | apply | undo | redo | importBundle => simp [Move.resolve?] at h

theorem move_resolve? (s : Session) (m : Move) :
    s.move m = match m.resolve? s.settings with
      | some m' => s.move m'
      | none => s := by
  cases m with
  | request r => exact handle_eq_move s r
  | usePreset | load | apply | undo | redo | importBundle => rfl

namespace Tells

theorem of_withLog
    (h : ∀ log, (s.withLog log).move m = s'.withLog (log.recordAll told)) : s.Tells [m] told := by
  have hs : s.move m = s'.withLog (s.store.log.recordAll told) := h s.store.log
  intro log
  calc (s.withLog log).run [m] = s'.withLog (log.recordAll told) := h log
    _ = (s.run [m]).withLog (log.recordAll told) := by
      rw [show s.run [m] = s.move m from rfl, hs]
      rfl

/-- What a step of the store tells is what the move tells that takes it. -/
theorem of_store {α : Type} {step : Store → Store × α} (tells : Store.Tells step s.store told)
    (steps : ∀ log, (s.withLog log).move m = { s with store := (step (s.store.withLog log)).1 }) :
    s.Tells [m] told := by
  let after : Session := { s with store := (step s.store).1 }
  have hmove : ∀ log, (s.withLog log).move m = after.withLog (log.recordAll told) := by
    intro log
    rw [steps, tells log]
    rfl
  exact of_withLog hmove

theorem of_resolve? (resolves : m.resolve? s.settings = some m') (h : s.Tells [m'] told) :
    s.Tells [m] told := by
  intro log
  have hrun : ∀ log, (s.withLog log).run [m] = (s.withLog log).run [m'] := by
    intro log
    have hresolves : m.resolve? (s.withLog log).settings = some m' := resolves
    rw [run, run, List.foldl_cons, List.foldl_cons, move_resolve?, hresolves]
  have hs : s.run [m] = s.run [m'] := hrun s.store.log
  rw [hrun, hs, h log]

theorem append (h : s.Tells moves a) (h' : (s.run moves).Tells rest b) :
    s.Tells (moves ++ rest) (a ++ b) := by
  intro log
  rw [run_append, run_append, h log, h' (log.recordAll a), EventLog.recordAll_append]

end Tells

theorem usePreset_withLog (s : Session) (p : Preset) (log : EventLog Notice) :
    (s.withLog log).usePreset p = (s.usePreset p).map (·.withLog log) := by
  simp only [usePreset, emptyStore, Store.create]
  cases History.ofLimit _ <;> rfl

theorem revision_of_usePreset {p : Preset} (h : s.usePreset p = .ok s') :
    s'.store.revision = 0 := by
  obtain ⟨store, hstore, rfl⟩ := usePreset_eq_ok h
  exact Store.revision_of_create hstore

/-- Taking a preset into use is told nobody, and numbers start again. -/
theorem move_of_switches (h : s.switches m = true) :
    s.Tells [m] [] ∧ (s.move m).store.revision = 0 := by
  unfold switches at h
  split at h
  next p hresolves =>
    cases husing : s.usePreset p with
    | error f => simp [husing, Except.isOk, Except.toBool] at h
    | ok s' =>
      have hmove : ∀ log, (s.withLog log).move (.usePreset p) = s'.withLog log := by
        intro log
        rw [move, usePreset_withLog, husing]
        rfl
      refine ⟨.of_resolve? hresolves (.of_withLog hmove), ?_⟩
      rw [move_resolve?, hresolves]
      simp only [move, husing]
      exact revision_of_usePreset husing
  next => simp at h

/-- A move that does nothing tells nothing. -/
theorem ledger_of_idle (idle : ∀ log, (s.withLog log).move m = s.withLog log) :
    ∃ told, s.Tells [m] told ∧ s.store.Ledger told (s.move m).store := by
  have hs : s.move m = s := idle s.store.log
  rw [hs]
  exact ⟨[], .of_withLog idle, .refl _⟩

/-- A move that is one of the store tells what that one does. -/
theorem ledger_of_store_move (h : s.store.Tracks t) (step : Store.Move)
    (steps : ∀ log,
      (s.withLog log).move m = { s with store := ((s.store.withLog log).move step).1 }) :
    ∃ told, s.Tells [m] told ∧ s.store.Ledger told (s.move m).store := by
  obtain ⟨told, htells, hledger, -⟩ := h.move_ledger step
  have hs : s.move m = { s with store := (s.store.move step).1 } := steps s.store.log
  rw [hs]
  exact ⟨told, .of_store htells steps, hledger⟩

/-- What a move tells that takes no preset into use. -/
theorem ledger_of_stays (h : s.store.Tracks t) (stays : s.switches m = false) :
    ∃ told, s.Tells [m] told ∧ s.store.Ledger told (s.move m).store := by
  cases hresolves : m.resolve? s.settings with
  | none =>
    refine ledger_of_idle ?_
    intro log
    have hnone : m.resolve? (s.withLog log).settings = none := hresolves
    rw [move_resolve?, hnone]
  | some m' =>
    -- a request tells what the move tells that it comes down to, and that one is no request
    suffices hresolved : ∃ told, s.Tells [m'] told ∧ s.store.Ledger told (s.move m').store by
      obtain ⟨told, htells, hledger⟩ := hresolved
      refine ⟨told, htells.of_resolve? hresolves, ?_⟩
      rwa [move_resolve?, hresolves]
    cases m' with
    | usePreset p =>
      simp only [switches, hresolves] at stays
      cases husing : s.usePreset p with
      | ok s' => simp [husing, Except.isOk, Except.toBool] at stays
      | error f =>
        refine ledger_of_idle ?_
        intro log
        rw [move, usePreset_withLog, husing]
        rfl
    | load v =>
      by_cases hload : ∃ d, Exchange.load s.store.preset v = .ok (.ok d)
      · obtain ⟨d, hload⟩ := hload
        refine ledger_of_store_move h (.load d) ?_
        intro log
        have hload' : Exchange.load (s.withLog log).store.preset v = .ok (.ok d) := hload
        rw [move, hload']
        rfl
      · refine ledger_of_idle ?_
        intro log
        rw [move]
        split
        next d hload' => exact absurd ⟨d, hload'⟩ hload
        next => rfl
    | apply m => exact ledger_of_store_move h (.apply m) fun _ => rfl
    | undo => exact ledger_of_store_move h .undo fun _ => rfl
    | redo => exact ledger_of_store_move h .redo fun _ => rfl
    | importBundle o origin cancelled =>
      obtain ⟨told, htells, hledger⟩ := Stix.importInto_ledger h o origin cancelled
      exact ⟨told, .of_store htells fun _ => rfl, hledger⟩
    | request r => exact absurd rfl (resolve?_ne_request hresolves)

/-- What is told over a run, parted where the preset that is in use now was taken into use. -/
structure Stretches (s : Session) (moves : List Move) (earlier current : List Notice) : Prop where
  tells : s.Tells moves (earlier ++ current)
  named : ∀ n ∈ earlier ++ current,
    n.toEvent.name = "documentChanged" ↔ n.change?.isSome = true
  earlier_numbers : numbers earlier = (s.left moves).flatMap fun n => List.range' 1 n
  ledger : ∃ first : Store, first.revision = 0 ∧ first.Ledger current (s.run moves).store

namespace Stretches

theorem nil (unnumbered : s.store.revision = 0) : s.Stretches [] [] [] where
  tells := fun _ => rfl
  named := by simp
  earlier_numbers := rfl
  ledger := ⟨s.store, unnumbered, .refl _⟩

theorem current_numbers (h : s.Stretches moves earlier current) :
    numbers current = List.range' 1 (s.run moves).store.revision := by
  obtain ⟨first, hzero, hledger⟩ := h.ledger
  simp only [hledger.numbers, hledger.revision, hzero, Nat.zero_add]

/-- Under the preset in use the last commit has the highest number and the document of the store. -/
theorem highest?_eq (h : s.Stretches moves earlier current)
    (committed : 0 < (s.run moves).store.revision)
    (lower : ∀ n ∈ numbers told, n < (s.run moves).store.revision) :
    highest? (told ++ current) =
      some ((s.run moves).store.revision, (s.run moves).store.document) := by
  obtain ⟨first, hzero, hledger⟩ := h.ledger
  have hlast := hledger.getLast?_eq (hzero ▸ committed)
  obtain ⟨before, hbefore⟩ := List.getLast?_eq_some_iff.mp hlast
  have hchanges : changes (told ++ current) = (changes told ++ before) ++
      [((s.run moves).store.revision, (s.run moves).store.document)] := by
    rw [changes_append, hbefore, List.append_assoc]
  have hrise : (numbers current).Pairwise (· < ·) := by
    rw [h.current_numbers]
    exact List.pairwise_lt_range'
  rw [numbers, hbefore, List.map_append, List.pairwise_append] at hrise
  refine highest?_of_last hchanges ?_
  intro k hk
  rcases List.mem_append.mp hk with htold | hcurrent
  · exact lower k.1 (List.mem_map_of_mem htold)
  · exact hrise.2.2 k.1 (List.mem_map_of_mem hcurrent) _ (List.mem_singleton_self _)

theorem append (h : s.Stretches moves earlier current) (stays : (s.run moves).switches m = false)
    (tells : (s.run moves).Tells [m] told)
    (ledger : (s.run moves).store.Ledger told ((s.run moves).move m).store) :
    s.Stretches (moves ++ [m]) earlier (current ++ told) where
  tells := by
    rw [← List.append_assoc]
    exact h.tells.append tells
  named := by
    intro n hn
    rw [← List.append_assoc, List.mem_append] at hn
    exact hn.elim (h.named n) (ledger.named n)
  earlier_numbers := by
    rw [h.earlier_numbers, left_append]
    simp [left, stays]
  ledger := by
    obtain ⟨first, hzero, hledger⟩ := h.ledger
    refine ⟨first, hzero, ?_⟩
    rw [run_append]
    exact hledger.append ledger

theorem part (h : s.Stretches moves earlier current) (switches : (s.run moves).switches m = true)
    (tells : (s.run moves).Tells [m] [])
    (unnumbered : ((s.run moves).move m).store.revision = 0) :
    s.Stretches (moves ++ [m]) (earlier ++ current) [] where
  tells := h.tells.append tells
  named := by
    rw [List.append_nil]
    exact h.named
  earlier_numbers := by
    rw [numbers_append, h.earlier_numbers, h.current_numbers, left_append]
    simp [left, switches]
  ledger := by
    rw [run_append]
    exact ⟨_, unnumbered, .refl _⟩

end Stretches

/-- A run goes on in the stretch it is in, or starts another one. -/
theorem Reachable.stretches (h : s.Reachable) (unnumbered : s.store.revision = 0)
    (moves : List Move) : ∃ earlier current, s.Stretches moves earlier current := by
  induction moves using List.reverseRecOn with
  | nil => exact ⟨[], [], .nil unnumbered⟩
  | append_singleton before m ih =>
    obtain ⟨earlier, current, hbefore⟩ := ih
    cases hswitches : (s.run before).switches m with
    | true =>
      obtain ⟨htells, hzero⟩ := move_of_switches hswitches
      exact ⟨_, _, hbefore.part hswitches htells hzero⟩
    | false =>
      obtain ⟨t, htracks, -⟩ := (h.run before).invariant.2
      obtain ⟨told, htells, hledger⟩ := ledger_of_stays htracks hswitches
      exact ⟨_, _, hbefore.append hswitches htells hledger⟩

/-- Numbers that start again from one rise as long as only one of the starts is followed by any. -/
theorem pairwise_flatMap_range'_iff {marks : List Nat} :
    (marks.flatMap fun n => List.range' 1 n).Pairwise (· < ·) ↔ marks.countP (0 < ·) ≤ 1 := by
  induction marks with
  | nil => simp
  | cons n rest ih =>
    rw [List.flatMap_cons, List.pairwise_append, List.countP_cons]
    by_cases hn : n = 0
    · simpa [hn] using ih
    · have hpos : 0 < n := Nat.pos_of_ne_zero hn
      rw [if_pos (decide_eq_true hpos), ih]
      constructor
      · rintro ⟨-, -, hcross⟩
        -- a second start with numbers would have a one after the one of this start
        have hnone : rest.countP (0 < ·) = 0 := by
          apply List.countP_eq_zero.mpr
          intro later hlater hlaterpos
          have hfirst : 1 ∈ List.range' 1 n := by simp [hpos]
          have hsecond : 1 ∈ rest.flatMap fun n => List.range' 1 n :=
            List.mem_flatMap.mpr ⟨later, hlater, by simpa using hlaterpos⟩
          exact absurd (hcross 1 hfirst 1 hsecond) (by decide)
        omega
      · intro hcount
        have hnone : rest.countP (0 < ·) = 0 := by omega
        have hrest : (rest.flatMap fun n => List.range' 1 n) = [] := by
          apply List.flatMap_eq_nil_iff.mpr
          intro later hlater
          have hzero : later = 0 := by simpa using List.countP_eq_zero.mp hnone later hlater
          rw [hzero]
          rfl
        rw [hrest]
        exact ⟨List.pairwise_lt_range', by omega, by simp⟩

/-- The numbers of a session. Over a run they start again from one whenever a preset is taken into
use, so that they rise over all of it just when no more than one preset had its document committed.
Under the preset that is in use now they go up to the number of the store. Whoever keeps the commit
of the highest number has the document that there is now, if there is any commit under this preset
and nothing was kept before under as high a number as the last of them. -/
theorem numbers_of_run (settings : Settings) {p : Preset} {log : EventLog Notice} {store : Store}
    (started : emptyStore p log = .ok store) (moves : List Move) :
    let s := run ⟨settings, store⟩ moves
    let marks := left ⟨settings, store⟩ moves ++ [s.store.revision]
    ∃ earlier current,
      Tells ⟨settings, store⟩ moves (earlier ++ current) ∧
      (∀ n ∈ earlier ++ current,
        n.toEvent.name = "documentChanged" ↔ n.change?.isSome = true) ∧
      numbers (earlier ++ current) = (marks.flatMap fun n => List.range' 1 n) ∧
      numbers current = List.range' 1 s.store.revision ∧
      ((numbers (earlier ++ current)).Pairwise (· < ·) ↔ marks.countP (0 < ·) ≤ 1) ∧
      (0 < s.store.revision → ∀ before, (∀ n ∈ numbers before, n < s.store.revision) →
        highest? (before ++ current) = some (s.store.revision, s.store.document)) := by
  intro s marks
  have hreach : Reachable ⟨settings, store⟩ := reachable_emptyStore settings started
  obtain ⟨earlier, current, h⟩ := hreach.stretches (Store.revision_of_create started) moves
  have hcurrent : numbers current = List.range' 1 s.store.revision := h.current_numbers
  have hall : numbers (earlier ++ current) = marks.flatMap fun n => List.range' 1 n := by
    rw [numbers_append, h.earlier_numbers, hcurrent, List.flatMap_append, List.flatMap_singleton]
  refine ⟨earlier, current, h.tells, h.named, hall, hcurrent, ?_, ?_⟩
  · rw [hall]
    exact pairwise_flatMap_range'_iff
  · intro hpos before hbefore
    exact h.highest?_eq hpos hbefore

/-- A preset is taken into use by a request after one commit. The second commit under it has a number
higher than any before, so that who keeps the highest has the document again. -/
theorem numbers_of_run_overtaken :
    let p := Library.topology
    let log : EventLog Notice := { limit := 5 }
    let history : History := { limit := 100, limit_pos := by decide }
    let store : Store := { preset := p, document := .blank p, history, log }
    let add (id : String) : Move := .apply (.addNode { id, typeId := "cloud" })
    let anew : Request :=
      { method := "POST", path := Endpoint.under "load", query := [("preset", "topo")] }
    let moves : List Move := [add "a", .request anew, add "b", add "c"]
    let s := run ⟨{}, store⟩ moves
    emptyStore p log = .ok store ∧ s.store.document.nodes.keys = ["b", "c"] ∧
      ∃ told, Tells ⟨{}, store⟩ moves told ∧ numbers told = [1, 1, 2] ∧
        highest? told = some (2, s.store.document) := by
  intro p log history store add anew moves s
  have started : emptyStore p log = .ok store := rfl
  obtain ⟨earlier, current, htells, -, hnumbers, hcurrent, -, hhighest⟩ :=
    numbers_of_run {} started moves
  have hleft : left ⟨{}, store⟩ moves = [1] := by decide +kernel
  have hrevision : s.store.revision = 2 := by decide +kernel
  rw [hleft, hrevision] at hnumbers
  rw [hrevision] at hcurrent hhighest
  have hearlier : numbers earlier = [1] := by
    rw [numbers_append, hcurrent] at hnumbers
    exact List.append_cancel_right hnumbers
  refine ⟨started, by decide +kernel, _, htells, hnumbers, hhighest (by decide) earlier ?_⟩
  rw [hearlier]
  decide

/-- A preset is taken into use after two commits. The commit under it goes by one again, and who
keeps the highest stays with a document that the session has left. -/
theorem numbers_of_run_restart :
    let p := Library.topology
    let log : EventLog Notice := { limit := 5 }
    let history : History := { limit := 100, limit_pos := by decide }
    let store : Store := { preset := p, document := .blank p, history, log }
    let add (id : String) : Move := .apply (.addNode { id, typeId := "cloud" })
    let moves : List Move := [add "a", add "b", .usePreset p, add "c"]
    let s := run ⟨{}, store⟩ moves
    emptyStore p log = .ok store ∧ s.store.revision = 1 ∧
      s.store.document.nodes.keys = ["c"] ∧
      ∃ told d, Tells ⟨{}, store⟩ moves told ∧ numbers told = [1, 2, 1] ∧
        ¬ (numbers told).Pairwise (· < ·) ∧
        highest? told = some (2, d) ∧ d.nodes.keys = ["a", "b"] := by
  intro p log history store add moves s
  let document (moves : List Move) : Document := (run ⟨{}, store⟩ moves).store.document
  let label (id : String) : String := (Mutation.addNode { id, typeId := "cloud" }).label
  let former : Document := document [add "a", add "b"]
  let told : List Notice :=
    [.changed (document [add "a"]) (label "a") 1, .changed former (label "b") 2,
      .changed (document moves) (label "c") 1]
  have htells : Tells ⟨{}, store⟩ moves told := fun _ => rfl
  have hnumbers : numbers told = [1, 2, 1] := rfl
  have hhighest : highest? told = some (2, former) := rfl
  refine ⟨rfl, by decide +kernel, by decide +kernel, told, former, htells, hnumbers, ?_, hhighest,
    ?_⟩
  · rw [hnumbers]
    decide
  · decide +kernel

end Workspace.Session

end GraphWorkbench
