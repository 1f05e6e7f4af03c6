import SearchCompiler.Config.Discovery
import SearchCompiler.Report.Paint

/-!
The overview of a configuration: the files it comes from, the settings of the compiler, and warnings
about these.
-/

namespace SearchCompiler

def overviewLine (text : String) : String :=
  "   " ++ text ++ "\n"

/-- A configuration file as seen from the current directory. -/
def sourceText (home : Option FilePath) (cwd path : FilePath) : String :=
  (cwd.relativeTo path).text ++ " "
    ++ Paint.apply .faint (if isGlobal home path then "(global)" else "(local)")

namespace Config

def sourcesText (home : Option FilePath) (cwd : FilePath) (c : Config) : String :=
  if c.sources.isEmpty then
    overviewLine (Paint.apply .faint "(none found, using defaults)")
      ++ overviewLine ("Run " ++ Paint.apply .subheading "sift init" ++ " to create one.")
  else String.join (c.sources.map fun path => overviewLine (sourceText home cwd path))

/-- The warnings, or that there are none. -/
def warningsText (c : Config) : String :=
  if c.compile.warnings.isEmpty then Paint.apply .success "Configuration OK" ++ "\n"
  else
    Paint.apply .subheading "Warnings:" ++ "\n"
      ++ String.join (c.compile.warnings.map fun w => overviewLine (Paint.apply .warning w.message))

def overview (home : Option FilePath) (cwd : FilePath) (c : Config) : String :=
  Paint.apply .subheading "Config files:" ++ "\n" ++ c.sourcesText home cwd ++ "\n"
    ++ Paint.apply .subheading "Compile settings:" ++ "\n"
    ++ overviewLine ("catch-all field   " ++ c.compile.catchAllField)
    ++ overviewLine ("boost modifier    " ++ c.compile.boostModifier)
    ++ overviewLine ("boost factor      " ++ toString c.compile.boostFactor)
    ++ overviewLine ("boost precedence  " ++ c.compile.boostPolicy.name)
    ++ "\n" ++ c.warningsText

end Config

end SearchCompiler
