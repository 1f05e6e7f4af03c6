import SearchCompiler.Config.Raw
import SearchCompiler.Files.Path
import SearchCompiler.Text.Blank
import SearchCompiler.Toml.Printer

/-!
The configuration in force: what several files, nearest first, amount to. Every setting takes its
value from the first file that defines it, or its default.
-/

namespace SearchCompiler

structure OutputSettings where
  -- Whether documents are spread over lines.
  pretty : Bool := true
  -- Whether documents are highlighted on terminals.
  color : Bool := true
deriving DecidableEq, Inhabited

structure ConfigFile where
  path : FilePath
  raw : RawConfig
deriving Inhabited

structure Config where
  compile : Settings := {}
  output : OutputSettings := {}
  -- The directory of the nearest file.
  directory : Option FilePath := none
  -- The files it comes from, nearest first.
  sources : List FilePath := []
deriving Inhabited

def RawCompile.applyTo (raw : RawCompile) (s : Settings) : Settings :=
  { catchAllField := raw.catchAllField.getD s.catchAllField
    boostModifier := raw.boostModifier.getD s.boostModifier
    boostFactor := raw.boostFactor.getD s.boostFactor
    boostPolicy := raw.boostPolicy.getD s.boostPolicy }

/-- Output settings with those of a file put over them. -/
def RawOutput.applyTo (raw : RawOutput) (s : OutputSettings) : OutputSettings :=
  { pretty := raw.pretty.getD s.pretty
    color := raw.color.getD s.color }

/-- The configuration that files, nearest first, amount to. -/
def Config.merge (files : List ConfigFile) : Config :=
  { compile := files.foldr (fun f s => (f.raw.compile.getD {}).applyTo s) {}
    output := files.foldr (fun f s => (f.raw.output.getD {}).applyTo s) {}
    directory := files.head?.bind fun f => f.path.parent?
    sources := files.map ConfigFile.path }

/-- Settings with which documents would not do what they should. -/
inductive Warning where
  | emptyCatchAllField
  | unknownModifier (modifier : String)
  | zeroFactor
deriving DecidableEq, Inhabited

def Warning.message : Warning → String
  | .emptyCatchAllField => "catch_all_field is empty"
  | .unknownModifier modifier =>
    "boost_modifier '" ++ modifier ++ "' is not one of: " ++ ", ".intercalate boostModifiers
  | .zeroFactor => "boost_factor is 0; boost_where would hide matches instead"

def Settings.warnings (s : Settings) : List Warning :=
  (if Text.isBlank s.catchAllField then [.emptyCatchAllField] else []) ++
    (if s.boostModifier ∈ boostModifiers then [] else [.unknownModifier s.boostModifier]) ++
    (if s.boostFactor = 0 then [.zeroFactor] else [])

def settingLine (key value : String) : String :=
  key ++ " = " ++ value ++ "\n"

def Config.toToml (c : Config) : String :=
  "[compile]\n"
    ++ settingLine "catch_all_field" (Toml.stringText c.compile.catchAllField)
    ++ settingLine "boost_modifier" (Toml.stringText c.compile.boostModifier)
    ++ settingLine "boost_factor" (toString c.compile.boostFactor)
    ++ settingLine "boost_precedence" (Toml.stringText c.compile.boostPolicy.name)
    ++ "\n[output]\n"
    ++ settingLine "pretty" (toString c.output.pretty)
    ++ settingLine "color" (toString c.output.color)

end SearchCompiler
