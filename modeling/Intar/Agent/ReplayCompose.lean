import Mathlib

/-!
# Composing the replay of a session

`intar-agent/src/vm/replay_compose.rs`: a recording becomes an asciicast, whose events have the
interval since the event before instead of a time.  A pause that is longer than the idle limit is cut
short, and the markers of the checks that passed take their intervals out of the pause they lie in.

The times are whole milliseconds, so that rounding to milliseconds changes nothing.
-/

namespace Intar.Agent.Replay

open List

inductive KrecEventData where
  | output (text : String)
  | input (text : String)
  | resize (cols rows : Nat)

structure KrecEvent where
  time : ℤ
  data : KrecEventData

structure ParsedKrec where
  (width height startTimestampMs : Nat)
  events : List KrecEvent

/-- The line is the kind and the payload. -/
structure CastEvent where
  interval : ℤ
  line : String × String

structure Cast where
  (cols rows timestamp : Nat)
  events : List CastEvent

def idleTimeLimit : ℤ := 1500

def KrecEventData.line : KrecEventData → String × String
  | output text => ("o", text)
  | input text => ("i", text)
  | resize cols rows => ("r", s!"{cols}x{rows}")

/-- Where a time lies in the pause after the last event, as the cast has it. -/
def offset (lastRaw time : ℤ) : ℤ := min (max (time - lastRaw) 0) idleTimeLimit

/-- The events of a cast with the time of the replay. -/
def replay (now : ℤ) : List CastEvent → List (ℤ × String × String)
  | [] => []
  | event :: events => (now + event.interval, event.line) :: replay (now + event.interval) events

def Ordered (markers : List (ℤ × String)) : Prop := markers.Pairwise fun a b => a.1 ≤ b.1

variable {lastRaw now : ℤ} {markers : List (ℤ × String)}

namespace Demo

def session : ParsedKrec := ⟨80, 24, 0, [⟨2000, .output "a"⟩, ⟨6000, .output "b"⟩]⟩

end Demo

end Intar.Agent.Replay
