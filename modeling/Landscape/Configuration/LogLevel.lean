import Landscape.Json.Decoding

/-!
Levels of logging, from the quietest to the most talkative.
-/

namespace Landscape

inductive LogLevel
  | error
  | warn
  | info
  | debug
  | trace
deriving Repr, DecidableEq

namespace LogLevel

/-- All levels in increasing order. -/
def all : List LogLevel :=
  [error, warn, info, debug, trace]

def name : LogLevel → String
  | error => "error"
  | warn => "warn"
  | info => "info"
  | debug => "debug"
  | trace => "trace"

def ofName? (text : String) : Option LogLevel :=
  all.find? (·.name = text)

def next : LogLevel → LogLevel
  | error => warn
  | warn => info
  | info => debug
  | debug | trace => trace

/-- The level that is so many steps more talkative. There is none beyond the last. -/
def raised (level : LogLevel) : Nat → LogLevel
  | 0 => level
  | 1 => level.next
  | 2 => level.next.next
  | 3 => level.next.next.next
  | _ => trace

def ofJson? (j : Json) : Option LogLevel :=
  j.name?.bind ofName?

end LogLevel

end Landscape
