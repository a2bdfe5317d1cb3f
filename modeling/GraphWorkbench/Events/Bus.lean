import GraphWorkbench.Events.Log
/-!
An event bus. Handlers are subscribed to events by name; when one is called it goes on as its
program says, which may change subscriptions, emit further events and look at what happened in
between. An emission calls the handlers that were subscribed when it started, and a handler that
fails stops without harm to the others. The bus keeps a journal: it changes by one moment after
another, and what it is at any time is what the moments up to then have made of it.
-/
namespace GraphWorkbench

/-- One thing that a handler does when it is called. -/
inductive Action where
  | subscribe (event handler token : String)
  | unsubscribe (token : String)
  | emit (event : String) (payload : Json)
  | fail
deriving DecidableEq

/-- A subscription of a handler to an event. -/
structure Subscription where
  event : String
  handler : String
deriving DecidableEq

/-- A call of a handler with an event. -/
structure Delivery where
  handler : String
  event : Event
deriving DecidableEq

/-- What happens at a bus. Emissions are told apart by their number. -/
inductive Moment where
  | subscribed (s : Subscription) (token : String)
  | unsubscribed (token : String)
  | emitted (e : Event)
  | called (emission : Nat) (d : Delivery)
deriving DecidableEq

/-- The event that is emitted at a moment. -/
def Moment.event? : Moment → Option Event
  | .emitted e => some e
  | _ => none

def Moment.delivery? : Moment → Option Delivery
  | .called _ d => some d
  | _ => none

/-- The subscriptions in order, the token of each, what handlers do where it is known beforehand,
the log, and all that has happened. -/
structure Bus where
  log : EventLog Event
  subscriptions : List Subscription := []
  tokens : Table Subscription := .empty
  programs : Table (List Action) := .empty
  journal : List Moment := []

/-- What a handler goes on to do. What comes next may depend on how the bus stands by then, with all
that was told before, and on the event that an emission gives back. -/
inductive Program where
  | done
  | fail (f : Fault)
  | subscribe (event handler token : String) (next : Bus → Program)
  | unsubscribe (token : String) (next : Bus → Program)
  | emit (e : Event) (next : Event → Bus → Program)

/-- What each handler does when it is called with an event. -/
abbrev Behaviour := String → Event → Bus → Program

/-- The program of some actions, one after another, whatever happens. -/
def Program.ofActions : List Action → Program
  | [] => .done
  | .subscribe event handler token :: rest => .subscribe event handler token fun _ => ofActions rest
  | .unsubscribe token :: rest => .unsubscribe token fun _ => ofActions rest
  | .emit event payload :: rest => .emit ⟨event, payload⟩ fun _ _ => ofActions rest
  | .fail :: _ => .fail (.malformed "the handler failed")

namespace Bus

/-- The events that were emitted, in order; the number of an emission is its place among them. -/
def emissions (b : Bus) : List Event := b.journal.filterMap Moment.event?

/-- The calls that were made, in order. -/
def deliveries (b : Bus) : List Delivery := b.journal.filterMap Moment.delivery?

/-- The handlers of an event, in the order in which they were subscribed. -/
def handlersOf (b : Bus) (event : String) : List String :=
  (b.subscriptions.filter fun s => s.event == event).map (·.handler)

/-- What a moment makes of a bus. To unsubscribe is to let go the first subscription of the same
handler to the same event, and nothing happens when there is none. -/
def note (b : Bus) (m : Moment) : Bus :=
  let b := { b with journal := b.journal ++ [m] }
  match m with
  | .subscribed s token =>
    { b with subscriptions := b.subscriptions ++ [s], tokens := b.tokens.put token s }
  | .unsubscribed token => match b.tokens.get? token with
    | some s => { b with subscriptions := b.subscriptions.erase s }
    | none => b
  | .emitted e => { b with log := b.log.record e }
  | .called _ _ => b

/-- Subscribes a handler; the token cancels the subscription later. -/
def subscribe (b : Bus) (event handler token : String) : Bus :=
  b.note (.subscribed ⟨event, handler⟩ token)

/-- Cancels a subscription by its token; an unknown token is a fault. -/
def unsubscribe (b : Bus) (token : String) : Except Fault Bus :=
  if b.tokens.has token then .ok (b.note (.unsubscribed token)) else .error (.noKey token)

/-- Runs a program, with a way to emit. The answer is the bus afterwards and whether the program
failed; none when an emission in it comes to no end. -/
def run (emit : Bus → Event → Option (Event × Bus)) (b : Bus) :
    Program → Option (Bus × Except Fault Unit)
  | .done => some (b, .ok ())
  | .fail f => some (b, .error f)
  | .subscribe event handler token next =>
    let b := b.subscribe event handler token
    run emit b (next b)
  | .unsubscribe token next => match b.unsubscribe token with
    | .ok b => run emit b (next b)
    | .error f => some (b, .error f)
  | .emit e next => match emit b e with
    | some (e, b) => run emit b (next e b)
    | none => none

/-- Calls a handler for an emission. That it fails is of no account. -/
def call (behaviour : Behaviour) (emit : Bus → Event → Option (Event × Bus)) (emission : Nat)
    (e : Event) (b : Bus) (handler : String) : Option Bus :=
  let b := b.note (.called emission ⟨handler, e⟩)
  (run emit b (behaviour handler e b)).map Prod.fst

/-- Emits an event and gives it back; none when emissions are nested more deeply than a bound. -/
def emitWithin (behaviour : Behaviour) : Nat → Bus → Event → Option (Event × Bus)
  | 0, _, _ => none
  | depth + 1, b, e => do
    let b' ← (b.handlersOf e.name).foldlM (call behaviour (emitWithin behaviour depth)
      b.emissions.length e) (b.note (.emitted e))
    return (e, b')

/-- What the handlers do whose programs are known beforehand. -/
def listed (b : Bus) : Behaviour := fun handler _ _ =>
  .ofActions ((b.programs.get? handler).getD [])

/-- A depth of nesting that suffices unless handlers subscribe others or call each other for ever:
of two calls of one handler inside each other, the inner one meets fewer subscriptions. -/
def depth (b : Bus) : Nat := (b.subscriptions.length + 1) * (b.programs.size + 1) + 1

/-- Emits an event to handlers whose programs are known beforehand. -/
def emit (b : Bus) (e : Event) : Option Bus :=
  (emitWithin b.listed b.depth b e).map Prod.snd

end Bus

end GraphWorkbench
