import MapStyle.Failure
import MapStyle.Meaning

/-
  This file defines the events that are logged on the way,
  and computations that log events whether they succeed or
  not.

  Key definitions include:
    * `Level`
    * `Event`
    * `Event.message`
    * `Traced`
-/

namespace MapStyle

------------------------------------------------------------
-- Events
------------------------------------------------------------

/- The weight of an event. -/
inductive Level
  | warn
  | info
  | debug
  | trace
deriving DecidableEq

namespace Level

/- Levels by falling weight. -/
def rank : Level → Nat
  | .warn => 0
  | .info => 1
  | .debug => 2
  | .trace => 3

/- The name of a level. -/
def name : Level → String
  | .warn => "WARN"
  | .info => "INFO"
  | .debug => "DEBUG"
  | .trace => "TRACE"

end Level

/- Something that happened on the way. -/
inductive Event
  | resolved (name : String) (meaning : Meaning)
  | noSource (layer : String)
  | amended (layer : String) (condition : Expression) (key : String)
  | begun (layer : String) (condition : Expression) (key : String)
  | derived (layer child : String) (siblings : Nat)
  | including (file : String)
  | discarded (statement : String) (value : Value)
  | suppressed (layer : String)
  | dropped (layer : String)
  | referring (layer target : String)
  | compiled (layers sources : Nat)

namespace Event

/- The weight of an event. -/
def level : Event → Level
  | .resolved _ _ => .trace
  | .discarded _ _ => .trace
  | .noSource _ => .warn
  | .compiled _ _ => .info
  | _ => .debug

/- The wording of an event. -/
def message : Event → String
  | .resolved name meaning =>
      "resolved `" ++ name ++ "` as " ++ meaning.text
  | .noSource layer =>
      "layer `" ++ layer
        ++ "` has no source and no default source is marked"
  | .amended layer condition key =>
      "layer `" ++ layer ++ "`: amending cascade "
        ++ condition.text ++ " with `" ++ key ++ "`"
  | .begun layer condition key =>
      "layer `" ++ layer ++ "`: new cascade "
        ++ condition.text ++ " with `" ++ key ++ "`"
  | .derived layer child siblings =>
      "layer `" ++ layer ++ "`: derived `" ++ child ++ "` with "
        ++ countText siblings ++ " cascade sibling(s)"
  | .including file => "including `" ++ file ++ "`"
  | .discarded statement value =>
      "statement `" ++ statement ++ "` evaluated to "
        ++ value.jsonText ++ " and was discarded"
  | .suppressed layer => "layer `" ++ layer ++ "` suppressed"
  | .dropped layer =>
      "layer `" ++ layer
        ++ "` dropped: no layout or paint output"
  | .referring layer target =>
      "layer `" ++ layer ++ "` refers to `" ++ target ++ "`"
  | .compiled layers sources =>
      "compiled " ++ countText layers ++ " layer(s) from "
        ++ countText sources ++ " source(s)"

/- The line of an event in a log. -/
def line (event : Event) : String :=
  event.level.name ++ " " ++ event.message

end Event

/- The lines of the events that weigh at least as much as a level. -/
def logLines
    (level : Level)
    (events : List Event) : List String :=
  (events.filter fun e => e.level.rank ≤ level.rank).map
    Event.line

------------------------------------------------------------
-- Traced computations
------------------------------------------------------------

/- An outcome with the events on the way to it. -/
structure Traced (ε α : Type) where
  outcome : Except ε α
  events : List Event

namespace Traced

variable {ε α β : Type}

/- A failure without events. -/
def fail (error : ε) : Traced ε α :=
  ⟨.error error, []⟩

/- An outcome without events. -/
def ofExcept (outcome : Except ε α) : Traced ε α :=
  ⟨outcome, []⟩

/- Log one event. -/
def emit (event : Event) : Traced ε Unit :=
  ⟨.ok (), [event]⟩

/- Go on after a success; the events come in order. -/
def bind
    (first : Traced ε α)
    (next : α → Traced ε β) : Traced ε β :=
  match first.outcome with
  | .ok a =>
      let second := next a
      ⟨second.outcome, first.events ++ second.events⟩
  | .error e => ⟨.error e, first.events⟩

instance : Monad (Traced ε) where
  pure a := ⟨.ok a, []⟩
  bind := bind

/- After a success, the rest decides. -/
theorem outcome_bind
    {first : Traced ε α}
    {a : α}
    (h : first.outcome = .ok a)
    (next : α → Traced ε β) :
    (first >>= next).outcome = (next a).outcome := by
  change (Traced.bind first next).outcome = _
  unfold Traced.bind
  rw [h]

/- Change the kind of error. -/
def mapError
    {ε' : Type}
    (f : ε → ε')
    (t : Traced ε α) : Traced ε' α :=
  ⟨t.outcome.mapError f, t.events⟩

end Traced

end MapStyle
