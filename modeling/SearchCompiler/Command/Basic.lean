import SearchCompiler.Aggregation.Basic
import SearchCompiler.Report.Rendering

/-!
Commands: what a run of the program is asked to do.
-/

namespace SearchCompiler

inductive OptionsSource where
  -- The command line itself.
  | inline (text : String)
  -- A file, or standard input for the path `-`.
  | file (path : String)
deriving DecidableEq, Inhabited

structure CompileRequest where
  text : String := ""
  source : Option OptionsSource := none
  aggregations : List Aggregation := []
  output : OutputFlags := {}
  -- Whether the query and its conditions are explained before the document.
  explain : Bool := false
deriving Inhabited

structure InitRequest where
  -- In the home directory, not in the current one.
  userWide : Bool := false
  -- Also over a file that is there.
  force : Bool := false
deriving DecidableEq, Inhabited

inductive Command where
  -- Print the document of a text and options.
  | compile (request : CompileRequest)
  -- Write a configuration file.
  | init (request : InitRequest)
  -- Print the settings in force.
  | config
  -- Report on the configuration files and check the settings.
  | status
deriving Inhabited

structure Invocation where
  verbosity : Nat
  command : Command
deriving Inhabited

end SearchCompiler
