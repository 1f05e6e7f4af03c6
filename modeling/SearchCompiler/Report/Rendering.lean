import SearchCompiler.Config.Basic
import SearchCompiler.Json.Printer
import SearchCompiler.Report.Paint

/-!
How documents are printed: on one line, spread over lines, or spread and in colour. The settings say
what is wanted, flags narrow it down, and colour is for terminals only.
-/

namespace SearchCompiler

inductive Rendering where
  | compact
  | pretty
  | highlighted
deriving DecidableEq, Inhabited

structure OutputFlags where
  -- One line, without colour.
  json : Bool := false
  -- Without colour.
  noColor : Bool := false
deriving DecidableEq, Inhabited

namespace Rendering

def choose (settings : OutputSettings) (flags : OutputFlags) (terminal : Bool) : Rendering :=
  if flags.json || !settings.pretty then .compact
  else if settings.color && !flags.noColor && terminal then .highlighted
  else .pretty

/-- Only terminals get colour. -/
theorem choose_of_no_terminal (settings : OutputSettings) (flags : OutputFlags) :
    choose settings flags false = if flags.json || !settings.pretty then .compact else .pretty := by
  rw [choose, Bool.and_false, if_neg Bool.false_ne_true]

def render (rendering : Rendering) (document : Json.Value) : String :=
  match rendering with
  | .compact => document.compact
  | .pretty => document.pretty
  | .highlighted => SearchCompiler.highlighted document.pretty

end Rendering

end SearchCompiler
