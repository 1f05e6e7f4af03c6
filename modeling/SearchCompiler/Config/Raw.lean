import SearchCompiler.Decimal.Shortest
import SearchCompiler.Settings
import SearchCompiler.Text.Quoted
import SearchCompiler.Toml.Reader

/-!
Configuration files as they are written: every setting may be absent. Names that are not settings
are passed over whatever they hold, numbers that nobody can read excepted. The first setting, in the
order of names, whose value does not fit is the error.
-/

namespace SearchCompiler

structure RawCompile where
  catchAllField : Option String := none
  boostModifier : Option String := none
  boostFactor : Option UInt32 := none
  boostPolicy : Option BoostPolicy := none
deriving DecidableEq, Inhabited

structure RawOutput where
  pretty : Option Bool := none
  color : Option Bool := none
deriving DecidableEq, Inhabited

structure RawConfig where
  -- When true, files further up and the global file are not looked at.
  root : Option Bool := none
  compile : Option RawCompile := none
  output : Option RawOutput := none
deriving DecidableEq, Inhabited

inductive Wanted where
  | text
  | truth
  | factor
  | compileSection
  | outputSection
deriving DecidableEq, Inhabited

def Wanted.phrase : Wanted → String
  | .text => "a string"
  | .truth => "a boolean"
  | .factor => "u32"
  | .compileSection => "struct RawCompileSettings"
  | .outputSection => "struct RawOutputSettings"

inductive Misfit where
  | wrongType (found : String) (wanted : Wanted)
  | outOfRange (found : Int) (wanted : Wanted)
  | unknownPolicy (name : String)
  -- The value is not written as a policy is.
  | notPolicy
  -- The value is a number that nobody can read, or such a number is inside it.
  | unreadable
deriving DecidableEq, Inhabited

/-- The wording of a misfit. A value that does not even look right has none of its own: it is
reported as a fault of the text is. -/
def Misfit.message? : Misfit → Option String
  | .wrongType found wanted => some ("invalid type: " ++ found ++ ", expected " ++ wanted.phrase)
  | .outOfRange n wanted =>
    some ("invalid value: integer `" ++ toString n ++ "`, expected " ++ wanted.phrase)
  | .unknownPolicy name => some ("unknown variant `" ++ name ++ "`, expected "
      ++ " or ".intercalate (BoostPolicy.all.map fun policy => "`" ++ policy.name ++ "`"))
  | .notPolicy => none
  | .unreadable => none

/-- A double in a report: by name if it is not finite, else with all its places, however many, and a
point in any case. -/
def floatPhrase (bits : UInt64) : String :=
  let f := Float.ofBits bits
  if f.isNaN then "NaN"
  else if f.isInf then (if f < 0 then "-inf" else "inf")
  else Decimal.Layout.write ⟨fun _ => true⟩ bits

/-- A whole number in a report. Numbers beyond 64 bits are named with the type that holds them. -/
def integerPhrase (n : Int) : String :=
  let plain := "integer `" ++ toString n ++ "`"
  if Toml.isWord 64 n then plain
  else if Toml.fitsSigned 128 n then plain ++ " as i128"
  else plain ++ " as u128"

/-- A value in a report, if it can be read. Dates and tables count as maps, arrays as sequences. -/
def Toml.Value.phrase? : Toml.Value → Option String
  | .string s => some ("string " ++ Text.quoted s)
  | .integer n => some (integerPhrase n)
  | .float bits => some ("floating point `" ++ floatPhrase bits ++ "`")
  | .huge => none
  | .boolean b => some ("boolean `" ++ toString b ++ "`")
  | .datetime => some "map"
  | .array _ => some "sequence"
  | .table _ => some "map"

mutual

/-- Whether a value and all that it holds can be read. -/
def Toml.Value.isReadable : Toml.Value → Bool
  | .huge => false
  | .array items => areReadable items
  | .table entries => entriesReadable entries
  | _ => true

def areReadable : List Toml.Value → Bool
  | [] => true
  | v :: rest => v.isReadable && areReadable rest

def entriesReadable : List (String × Toml.Value) → Bool
  | [] => true
  | (_, v) :: rest => v.isReadable && entriesReadable rest

end

def wrongType {α : Type} (v : Toml.Value) (wanted : Wanted) : Except Misfit α :=
  match v.phrase? with
  | some phrase => .error (.wrongType phrase wanted)
  | none => .error .unreadable

def passOver {α : Type} (raw : α) (v : Toml.Value) : Except Misfit α :=
  if v.isReadable then .ok raw else .error .unreadable

def textSetting : Toml.Value → Except Misfit String
  | .string s => .ok s
  | v => wrongType v .text

def truthSetting : Toml.Value → Except Misfit Bool
  | .boolean b => .ok b
  | v => wrongType v .truth

def factorSetting : Toml.Value → Except Misfit UInt32
  | .integer n =>
    if Toml.fitsUnsigned 32 n then .ok n.toNat.toUInt32
    else if Toml.isWord 64 n then .error (.outOfRange n .factor)
    else wrongType (.integer n) .factor
  | v => wrongType v .factor

def policyNamed (name : String) : Except Misfit BoostPolicy :=
  match BoostPolicy.ofName? name with
  | some policy => .ok policy
  | none => .error (.unknownPolicy name)

/-- A setting that is a policy: its name, or a table with nothing but an empty table of that name.
-/
def policySetting : Toml.Value → Except Misfit BoostPolicy
  | .string name => policyNamed name
  | .table [(name, content)] => do
    let policy ← policyNamed name
    match content with
    | .table [] => .ok policy
    | .array [] => .ok policy
    | _ => .error .notPolicy
  | _ => .error .notPolicy

/-- Takes a setting of the section on compiling into account. -/
def RawCompile.take (raw : RawCompile) (entry : String × Toml.Value) : Except Misfit RawCompile :=
  if entry.1 = "catch_all_field" then do
    return { raw with catchAllField := some (← textSetting entry.2) }
  else if entry.1 = "boost_modifier" then do
    return { raw with boostModifier := some (← textSetting entry.2) }
  else if entry.1 = "boost_factor" then do
    return { raw with boostFactor := some (← factorSetting entry.2) }
  else if entry.1 = "boost_precedence" then do
    return { raw with boostPolicy := some (← policySetting entry.2) }
  else passOver raw entry.2

/-- Takes a setting of the section on output into account. -/
def RawOutput.take (raw : RawOutput) (entry : String × Toml.Value) : Except Misfit RawOutput :=
  if entry.1 = "pretty" then do
    return { raw with pretty := some (← truthSetting entry.2) }
  else if entry.1 = "color" then do
    return { raw with color := some (← truthSetting entry.2) }
  else passOver raw entry.2

/-- The entries of a section: those of a table, or the items of an array under the names of the
settings in their order. A date has no entries that are settings. -/
def sectionEntries (names : List String) (wanted : Wanted) :
    Toml.Value → Except Misfit (Entries Toml.Value)
  | .table entries => .ok entries
  | .array items => .ok (names.zip items)
  | .datetime => .ok []
  | v => wrongType v wanted

def RawCompile.decode (v : Toml.Value) : Except Misfit RawCompile := do
  let names := ["catch_all_field", "boost_modifier", "boost_factor", "boost_precedence"]
  (← sectionEntries names .compileSection v).foldlM RawCompile.take {}

def RawOutput.decode (v : Toml.Value) : Except Misfit RawOutput := do
  (← sectionEntries ["pretty", "color"] .outputSection v).foldlM RawOutput.take {}

def RawConfig.take (raw : RawConfig) (entry : String × Toml.Value) : Except Misfit RawConfig :=
  if entry.1 = "root" then do
    return { raw with root := some (← truthSetting entry.2) }
  else if entry.1 = "compile" then do
    return { raw with compile := some (← RawCompile.decode entry.2) }
  else if entry.1 = "output" then do
    return { raw with output := some (← RawOutput.decode entry.2) }
  else passOver raw entry.2

def RawConfig.decode (document : Entries Toml.Value) : Except Misfit RawConfig :=
  document.foldlM RawConfig.take {}

inductive TextFault where
  -- It is not TOML.
  | notToml
  -- The value of a setting does not fit.
  | misfit (cause : Misfit)
deriving DecidableEq, Inhabited

/-- The wording of a fault, if it has one of its own. -/
def TextFault.message? : TextFault → Option String
  | .notToml => none
  | .misfit cause => cause.message?

def RawConfig.parse (text : String) : Except TextFault RawConfig :=
  match Toml.parse? text with
  | none => .error .notToml
  | some document =>
    match RawConfig.decode document with
    | .ok raw => .ok raw
    | .error cause => .error (.misfit cause)

end SearchCompiler
