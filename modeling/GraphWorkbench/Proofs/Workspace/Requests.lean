import GraphWorkbench.Proofs.Document.Ledger
import GraphWorkbench.Proofs.Document.Rereading
import GraphWorkbench.Proofs.Workspace.Session
/-!
What requests ask of a session. A request comes down to at most one move of the session, which its
method, path, query and body name before anything is done; all else about it is the reply. A request
that only reads, and one that is answered by a refusal, leave the session as it was, but that the
log tells of a rejected mutation.
-/
namespace GraphWorkbench.Workspace

/-- The endpoints that ask for no change. -/
def Endpoint.reads : Endpoint → Bool
  | .health | .presets | .document | .inference | .coverage | .history => true
  | .load | .replaceDocument | .mutations | .undo | .redo | .importBundle => false

theorem Endpoint.find_mem {r : Request} {endpoint : Endpoint} (h : find r = .ok endpoint) :
    ∃ e ∈ all, e.2.1 = r.method.toUpper ∧ e.2.2 = endpoint := by
  unfold find at h
  split at h
  next => simp at h
  next =>
    split at h
    next path method found hfind =>
      obtain rfl := Except.ok.inj h
      have htest := List.find?_some hfind
      simp only [Bool.and_eq_true, beq_iff_eq] at htest
      exact ⟨_, List.mem_of_find?_eq_some hfind, htest.2, rfl⟩
    next => simp at h

/-- What is asked for by the reading method is only read. -/
theorem Endpoint.reads_of_get {r : Request} {endpoint : Endpoint} (h : find r = .ok endpoint)
    (get : r.method.toUpper = "GET") : endpoint.reads = true := by
  obtain ⟨e, he, hmethod, rfl⟩ := find_mem h
  have hall : ∀ e ∈ all, e.2.1 = "GET" → e.2.2.reads = true := by
    simp [all, reads]
  exact hall e he (hmethod.trans get)

namespace Session

/-- The move that a request asks for at an endpoint, if it asks for one. -/
def asked (settings : Settings) (r : Request) : Endpoint → Option Move
  | .load => match requestedPreset r with
    | .ok (.ok p) => some (.usePreset p)
    | _ => none
  | .replaceDocument => match r.body with
    | .value (.obj fields) => some (.load (.obj fields))
    | _ => none
  | .mutations => match readBody requestedMutation .notObject r with
    | .ok m => some (.apply m)
    | .error _ => none
  | .undo => some .undo
  | .redo => some .redo
  | .importBundle => r.upload?.map fun source =>
    .importBundle settings.importOptions (.source source) false
  | .health | .presets | .document | .inference | .coverage | .history => none

/-- The move that a request comes down to, if there is one. -/
def ask? (settings : Settings) (r : Request) : Option Move :=
  match Endpoint.find r with
  | .ok endpoint => asked settings r endpoint
  | .error _ => none

variable {s : Session} {r : Request}

theorem serve_of_reads {endpoint : Endpoint} (h : endpoint.reads = true) :
    (s.serve r endpoint).1 = s := by
  cases endpoint with
  | inference =>
    rw [serve, answerInference]
    split
    next => rfl
    next => split <;> rfl
  | health | presets | document | coverage | history => rfl
  | load | replaceDocument | mutations | undo | redo | importBundle => simp [Endpoint.reads] at h

theorem serve_eq_move (endpoint : Endpoint) :
    (s.serve r endpoint).1 = match asked s.settings r endpoint with
      | some m => s.move m
      | none => s := by
  cases endpoint with
  | load =>
    rw [serve, load, asked]
    cases requestedPreset r with
    | error f => rfl
    | ok requested =>
      cases requested with
      | error reply => rfl
      | ok p =>
        simp only [move]
        cases s.usePreset p <;> rfl
  | replaceDocument =>
    rw [serve, replaceDocument, asked]
    cases hbody : r.body with
    | empty | file bytes => simp only [readBody, hbody]; rfl
    | value v =>
      cases v with
      | obj fields =>
        simp only [readBody, hbody, move]
        split
        next f hload => rw [hload]; rfl
        next violations hload => rw [hload]; rfl
        next d hload => rw [hload]
      | null | bool | int | float | str | arr => simp only [readBody, hbody]; rfl
  | mutations =>
    rw [serve, mutate, asked]
    cases readBody requestedMutation .notObject r with
    | error issues => rfl
    | ok m =>
      simp only [move]
      split <;> rfl
  | undo | redo =>
    rw [serve, answerStep, asked]
    simp only [move]
    split <;> rfl
  | importBundle =>
    rw [serve, importBundle, asked]
    cases r.upload? with
    | none => rfl
    | some source =>
      simp only [Option.map_some, move]
      split <;> rfl
  | health | presets | document | inference | coverage | history => exact serve_of_reads rfl

/-- Whatever the reply, a request does to a session just what the move does that it comes down to. -/
theorem handle_eq_move (s : Session) (r : Request) :
    (s.handle r).1 = match ask? s.settings r with
      | some m => s.move m
      | none => s := by
  rw [handle, ask?]
  cases Endpoint.find r with
  | error reply => rfl
  | ok endpoint => exact serve_eq_move endpoint

/-- What is written of a mutation, when it is posted, does to a session what the mutation does. -/
theorem handle_posted {m : Mutation} {naming : Naming} (finite : m.Finite)
    (posts : Endpoint.find r = .ok .mutations)
    (body : r.body = .value (.obj [("mutation", m.write naming)])) :
    (s.handle r).1 = s.move (.apply m) := by
  have hread : readBody requestedMutation .notObject r = .ok m := by
    simp [readBody, body, requestedMutation, Schema.required, Schema.lookup, Entries.get?,
      Mutation.decode_write finite]
  rw [handle_eq_move, ask?, posts]
  simp only [asked, hread]

def withLog (s : Session) (log : EventLog Notice) : Session :=
  { s with store := s.store.withLog log }

/-- Moves of a session tell some notices: these are what they add to the log, and the log has no other
part in them. -/
def Tells (s : Session) (moves : List Move) (told : List Notice) : Prop :=
  ∀ log, (s.withLog log).run moves = (s.run moves).withLog (log.recordAll told)

/-- A move comes to nothing: it is a document that is not loaded, a mutation that is rejected, a step
through the history that there is none for, or an import that ends before anything is committed. -/
def Declines (s : Session) : Move → Prop
  | .load v => ∃ violations, Exchange.load s.store.preset v = .ok (.error violations)
  | .apply m => ∃ r, s.store.Refuses r (.apply m)
  | .undo => ¬ s.store.Commits .undo
  | .redo => ¬ s.store.Commits .redo
  | .importBundle o origin _ => ∃ e, Stix.prepare s.store o origin = .error e
  | .usePreset _ | .request _ => False

variable {m : Move}

/-- A move that comes to nothing is told of at most as a rejection. -/
theorem move_of_declines (h : s.Declines m) :
    ∃ refusals : List Rejection, refusals.length ≤ 1 ∧
      ∀ log, (s.withLog log).move m = s.withLog (log.recordAll (refusals.map .refused)) := by
  cases m with
  | load v =>
    obtain ⟨violations, hload⟩ := h
    refine ⟨[], by simp, ?_⟩
    intro log
    have hload' : Exchange.load (s.withLog log).store.preset v = .ok (.error violations) := hload
    rw [move, hload']
    rfl
  | apply m =>
    obtain ⟨r, hrefuses⟩ := h
    refine ⟨[r], by simp, ?_⟩
    intro log
    have happly := congrArg Prod.fst (Store.move_of_refuses hrefuses log)
    exact congrArg (fun store => { s with store }) happly
  | undo =>
    obtain ⟨answer, -, hundo⟩ := Store.move_of_neither h fun _ => id
    refine ⟨[], by simp, ?_⟩
    intro log
    exact congrArg (fun step => { s with store := step.1 }) (hundo log)
  | redo =>
    obtain ⟨answer, -, hredo⟩ := Store.move_of_neither h fun _ => id
    refine ⟨[], by simp, ?_⟩
    intro log
    exact congrArg (fun step => { s with store := step.1 }) (hredo log)
  | importBundle o origin cancelled =>
    obtain ⟨e, hprepare⟩ := h
    refine ⟨[], by simp, ?_⟩
    intro log
    have hprepare' : Stix.prepare (s.withLog log).store o origin = .error e := hprepare
    rw [move, Stix.importInto, hprepare']
    rfl
  | usePreset p | request r => exact h.elim

theorem reply_not_refused {body : Json} {reply : Reply}
    (h : (.ok (.ok body) : Except Stop Reply) = .ok reply) : ¬ 400 ≤ reply.status := by
  obtain rfl := Except.ok.inj h
  simp [Reply.ok]

/-- A step back that is answered by no is one that there is nothing for. -/
theorem not_commits_undo {s : Store} (h : s.undo.2 = .ok false) : ¬ s.Commits .undo := by
  intro hpast
  cases hcommits : s.history.past with
  | nil => exact hpast hcommits
  | cons c rest =>
    simp only [Store.undo, History.undo, hcommits] at h
    split at h <;> simp at h

theorem not_commits_redo {s : Store} (h : s.redo.2 = .ok false) : ¬ s.Commits .redo := by
  intro hfuture
  cases hcommits : s.history.future with
  | nil => exact hfuture hcommits
  | cons c rest =>
    simp only [Store.redo, History.redo, hcommits] at h
    split at h <;> simp at h

theorem answerStep_refused {step : Store × Except Fault Bool} {text : String} {reply : Reply}
    (replies : (s.answerStep step text).2 = .ok reply) (refused : 400 ≤ reply.status) :
    step.2 = .ok false := by
  unfold answerStep at replies
  simp only at replies
  split at replies
  next => exact absurd refused (reply_not_refused replies)
  next hstep => exact hstep
  next => simp at replies

/-- An import that is not cancelled and ends in no stop has not come to its commit. -/
theorem prepare_of_answer {s : Store} {o : Stix.Options} {origin : Stix.Bundle.Origin}
    {e : Stix.ImportError} (h : (Stix.importInto s o origin false).2 = .error e)
    (unstopped : ∀ stop, e ≠ .stop stop) : ∃ e, Stix.prepare s o origin = .error e := by
  cases hprepare : Stix.prepare s o origin with
  | error e' => exact ⟨e', rfl⟩
  | ok prepared =>
    obtain ⟨b, report, c, accepted⟩ := prepared
    simp only [Stix.importInto, hprepare, Bool.false_eq_true, if_false] at h
    split at h
    next stop _ => exact absurd (Except.error.inj h).symm (unstopped stop)
    next => simp at h

/-- A request whose reply is a refusal asks for nothing, or for a move that comes to nothing. -/
theorem serve_refused {endpoint : Endpoint} {reply : Reply}
    (replies : (s.serve r endpoint).2 = .ok reply) (refused : 400 ≤ reply.status)
    (asks : asked s.settings r endpoint = some m) : s.Declines m := by
  cases endpoint with
  | load =>
    rw [asked] at asks
    split at asks
    next p hp =>
      simp only [serve, load, hp] at replies
      split at replies
      next => simp [answer] at replies
      next => exact absurd refused (reply_not_refused replies)
    next => simp at asks
  | replaceDocument =>
    rw [asked] at asks
    split at asks
    next fields hbody =>
      obtain rfl := Option.some.inj asks
      simp only [serve, replaceDocument, readBody, hbody] at replies
      split at replies
      next => simp [answer] at replies
      next violations hload => exact ⟨violations, hload⟩
      next => exact absurd refused (reply_not_refused replies)
    next => simp at asks
  | mutations =>
    rw [asked] at asks
    split at asks
    next m hbody =>
      obtain rfl := Option.some.inj asks
      simp only [serve, mutate, hbody] at replies
      split at replies
      next => exact absurd refused (reply_not_refused replies)
      next rejection hanswer => exact ⟨rejection, Store.refuses_of_answer hanswer⟩
      next => simp at replies
    next => simp at asks
  | undo =>
    obtain rfl := Option.some.inj asks
    exact not_commits_undo (answerStep_refused replies refused)
  | redo =>
    obtain rfl := Option.some.inj asks
    exact not_commits_redo (answerStep_refused replies refused)
  | importBundle =>
    rw [asked] at asks
    obtain ⟨source, hsource, rfl⟩ := Option.map_eq_some_iff.mp asks
    simp only [serve, importBundle, hsource] at replies
    split at replies
    next => exact absurd refused (reply_not_refused replies)
    next hresult => exact prepare_of_answer hresult (by simp)
    next hresult => exact prepare_of_answer hresult (by simp)
    next => simp at replies
  | health | presets | document | inference | coverage | history => simp [asked] at asks

theorem handle_refused_asks {reply : Reply} (replies : (s.handle r).2 = .ok reply)
    (refused : 400 ≤ reply.status) (asks : ask? s.settings r = some m) : s.Declines m := by
  rw [ask?] at asks
  rw [handle] at replies
  split at asks
  next endpoint hfind =>
    rw [hfind] at replies
    exact serve_refused replies refused asks
  next => simp at asks

theorem ask?_of_get (get : r.method.toUpper = "GET") (settings : Settings) :
    ask? settings r = none := by
  rw [ask?]
  split
  next endpoint hfind =>
    have hreads := Endpoint.reads_of_get hfind get
    cases endpoint <;> first | rfl | simp [Endpoint.reads] at hreads
  next => rfl

/-- A request asks for nothing, or for a move that comes to nothing, when it reads or is refused. -/
theorem declines_of_refused
    (refused : r.method.toUpper = "GET" ∨
      ∃ reply, (s.handle r).2 = .ok reply ∧ 400 ≤ reply.status ∧ reply.status < 500)
    (asks : ask? s.settings r = some m) : r.method.toUpper ≠ "GET" ∧ s.Declines m := by
  have hget : r.method.toUpper ≠ "GET" := by
    intro get
    simp [ask?_of_get get] at asks
  obtain ⟨reply, hreply, hlow, -⟩ := refused.resolve_left hget
  exact ⟨hget, handle_refused_asks hreply hlow asks⟩

/-- A request that only reads leaves a session as it is. A request that is refused, whatever it asked
for and however late it failed, leaves all but the log as it is: the preset, the document, what can
be undone and redone, and the number of the state. What it tells of is at most a rejection. -/
theorem handle_refused (s : Session) (r : Request)
    (refused : r.method.toUpper = "GET" ∨
      ∃ reply, (s.handle r).2 = .ok reply ∧ 400 ≤ reply.status ∧ reply.status < 500) :
    ∃ told, (s.handle r).1 = s.withLog (s.store.log.recordAll told) ∧
      s.Tells [.request r] told ∧
      (∀ n ∈ told, n.toEvent.name = "validationFailed") ∧
      told.length ≤ 1 ∧
      (r.method.toUpper = "GET" → told = []) := by
  have hhandle : ∃ refusals : List Rejection, refusals.length ≤ 1 ∧
      (r.method.toUpper = "GET" → refusals = []) ∧
      ∀ log, ((s.withLog log).handle r).1 =
        s.withLog (log.recordAll (refusals.map .refused)) := by
    cases hask : ask? s.settings r with
    | none =>
      refine ⟨[], by simp, fun _ => rfl, ?_⟩
      intro log
      have hask' : ask? (s.withLog log).settings r = none := hask
      rw [handle_eq_move, hask']
      rfl
    | some m =>
      obtain ⟨hget, hdeclines⟩ := declines_of_refused refused hask
      obtain ⟨refusals, hlength, hmove⟩ := move_of_declines hdeclines
      refine ⟨refusals, hlength, fun get => absurd get hget, ?_⟩
      intro log
      have hask' : ask? (s.withLog log).settings r = some m := hask
      rw [handle_eq_move, hask']
      exact hmove log
  obtain ⟨refusals, hlength, hget, hall⟩ := hhandle
  let told : List Notice := refusals.map .refused
  have hs : (s.handle r).1 = s.withLog (s.store.log.recordAll told) := hall s.store.log
  refine ⟨told, hs, ?_, ?_, ?_, ?_⟩
  · intro log
    have hrun : s.run [.request r] = s.withLog (s.store.log.recordAll told) := hs
    rw [hrun]
    exact hall log
  · intro n hn
    obtain ⟨rejection, _, rfl⟩ := List.mem_map.mp hn
    rfl
  · rwa [List.length_map]
  · intro get
    rw [List.map_eq_nil_iff]
    exact hget get

/-- A node that is not there is to be removed. The reply is a refusal, the one node that there is
stays, and the log has one more event, which is a rejection. -/
theorem handle_refused_removal :
    let p := Library.topology
    let history : History := { limit := 100, limit_pos := by decide }
    let empty : Store := { preset := p, document := .blank p, history, log := { limit := 5 } }
    let s : Session := ⟨{}, (empty.apply (.addNode { id := "a", typeId := "cloud" })).1⟩
    let removal : Json := .obj [("op", .str "remove-node"), ("nodeId", .str "b")]
    let r : Request :=
      { method := "POST", path := Endpoint.under "mutations"
        body := .value (.obj [("mutation", removal)]) }
    (∃ reply, (s.handle r).2 = .ok reply ∧ reply.status = 409) ∧
      ∃ told, (s.handle r).1 = s.withLog (s.store.log.recordAll told) ∧
        (∀ n ∈ told, n.toEvent.name = "validationFailed") ∧ told.length = 1 := by
  intro p history empty s removal r
  have hreply : ∃ reply, (s.handle r).2 = .ok reply ∧ reply.status = 409 := by
    have hstatus : (s.handle r).2.toOption.map Reply.status = some 409 := by decide +kernel
    obtain ⟨reply, hsome, hreply⟩ := Option.map_eq_some_iff.mp hstatus
    exact ⟨reply, Outcome.eq_ok_of_toOption hsome, hreply⟩
  obtain ⟨reply, hok, hstatus⟩ := hreply
  obtain ⟨told, hs, -, hnamed, hlength, -⟩ :=
    handle_refused s r (.inr ⟨reply, hok, by omega, by omega⟩)
  refine ⟨⟨reply, hok, hstatus⟩, told, hs, hnamed, ?_⟩
  have hone : s.store.log.newest.length = 1 := by decide +kernel
  have htwo : (s.handle r).1.store.log.newest.length = 2 := by decide +kernel
  cases told with
  | nil =>
    rw [hs] at htwo
    exact absurd (hone.symm.trans htwo) (by decide)
  | cons n rest =>
    rw [List.length_cons] at hlength ⊢
    omega

end Session

end GraphWorkbench.Workspace
