import SearchCompiler.Compile
import SearchCompiler.Config.Basic
import SearchCompiler.Proofs.TomlLines

/-!
Settings in force, printed and read again. The printed document has a line for every setting, so the
tables that it defines hold every setting, and the configuration they are decoded to leaves nothing to
defaults.
-/

namespace SearchCompiler

open Toml (BareName Node ReadsAs Statement Value Written)

/-- The line that opens a section, and the statement on it. -/
def headerLine (name : String) : List Char × List Statement :=
  ('[' :: (name.toList ++ [']']), [.table ⟨[], name⟩])

/-- The line of a setting, and the statement on it if its text stands for a value. -/
def valueLine (name text : String) (v : Value) : List Char × List Statement :=
  (name.toList ++ ' ' :: '=' :: ' ' :: text.toList, [.assign ⟨[], name⟩ v])

/-- The lines of a printed configuration, and the statements on them. -/
def Config.lines (c : Config) : List (List Char × List Statement) :=
  [headerLine "compile",
    valueLine "catch_all_field" (Toml.stringText c.compile.catchAllField)
      (.string c.compile.catchAllField),
    valueLine "boost_modifier" (Toml.stringText c.compile.boostModifier)
      (.string c.compile.boostModifier),
    valueLine "boost_factor" (toString c.compile.boostFactor)
      (.integer c.compile.boostFactor.toNat),
    valueLine "boost_precedence" (Toml.stringText c.compile.boostPolicy.name)
      (.string c.compile.boostPolicy.name),
    ([], []),
    headerLine "output",
    valueLine "pretty" (toString c.output.pretty) (.boolean c.output.pretty),
    valueLine "color" (toString c.output.color) (.boolean c.output.color)]

/-- The tables that the lines build, with sections and settings in the order of the lines. -/
def Config.nodes (c : Config) : Toml.Nodes :=
  [("compile", .table .header
      [("catch_all_field", .closed (.string c.compile.catchAllField)),
        ("boost_modifier", .closed (.string c.compile.boostModifier)),
        ("boost_factor", .closed (.integer c.compile.boostFactor.toNat)),
        ("boost_precedence", .closed (.string c.compile.boostPolicy.name))]),
    ("output", .table .header
      [("pretty", .closed (.boolean c.output.pretty)),
        ("color", .closed (.boolean c.output.color))])]

/-- The settings of a section in the order of their names. -/
def Settings.entries (s : Settings) : Entries Value :=
  [("boost_factor", .integer s.boostFactor.toNat), ("boost_modifier", .string s.boostModifier),
    ("boost_precedence", .string s.boostPolicy.name), ("catch_all_field", .string s.catchAllField)]

def OutputSettings.entries (s : OutputSettings) : Entries Value :=
  [("color", .boolean s.color), ("pretty", .boolean s.pretty)]

/-- The document that a printed configuration is. -/
def Config.document (c : Config) : Entries Value :=
  [("compile", .table c.compile.entries), ("output", .table c.output.entries)]

/-- A section in which every setting is written. -/
def Settings.raw (s : Settings) : RawCompile where
  catchAllField := some s.catchAllField
  boostModifier := some s.boostModifier
  boostFactor := some s.boostFactor
  boostPolicy := some s.boostPolicy

def OutputSettings.raw (s : OutputSettings) : RawOutput where
  pretty := some s.pretty
  color := some s.color

/-- The configuration file in which every setting is written as it is in force. -/
def Config.raw (c : Config) : RawConfig where
  compile := some c.compile.raw
  output := some c.output.raw

section Read

variable (c : Config)

theorem toList_toToml : c.toToml.toList = c.lines.flatMap fun line => line.1 ++ ['\n'] := by
  unfold Config.toToml
  simp [settingLine, Config.lines, headerLine, valueLine, String.toList_append]

theorem readsAs_headerLine {name : String} (h : BareName name) :
    ReadsAs (headerLine name).1 (headerLine name).2 :=
  Toml.readsAs_header h

theorem readsAs_valueLine {name text : String} {v : Value} (h : BareName name)
    (hv : Written text.toList v) : ReadsAs (valueLine name text v).1 (valueLine name text v).2 :=
  Toml.readsAs_setting h hv

theorem readsAs_lines : ∀ line ∈ c.lines, ReadsAs line.1 line.2 := by
  simp only [Config.lines, List.forall_mem_cons]
  exact ⟨readsAs_headerLine (by decide),
    readsAs_valueLine (by decide) (Toml.written_stringText _),
    readsAs_valueLine (by decide) (Toml.written_stringText _),
    readsAs_valueLine (by decide) (Toml.written_toString_uint32 _),
    readsAs_valueLine (by decide) (Toml.written_stringText _),
    Toml.readsAs_nil,
    readsAs_headerLine (by decide),
    readsAs_valueLine (by decide) (Toml.written_toString_bool _),
    readsAs_valueLine (by decide) (Toml.written_toString_bool _),
    List.forall_mem_nil _⟩

theorem add_lines :
    (c.lines.flatMap Prod.snd).foldlM Toml.Building.add {} = some ⟨["output"], c.nodes⟩ :=
  rfl

theorem sort_nodes : Toml.sortByName (Toml.entryValues c.nodes) = c.document := by
  simp +decide only [Config.nodes, Toml.entryValues, Node.value, Toml.sortByName, List.foldr_cons,
    List.foldr_nil, Toml.placeByName, if_true, if_false]
  rfl

theorem parse?_toToml : Toml.parse? c.toToml = some c.document := by
  have hmark : Toml.dropByteOrderMark c.toToml.toList = c.toToml.toList := by
    rw [toList_toToml]
    rfl
  rw [Toml.parse?_of_lines (toList_toToml c) hmark (readsAs_lines c), Toml.build, add_lines,
    Option.map_some, sort_nodes]

end Read

section Decoded

theorem foldlM_cons_ok {α β ε : Type} {f : β → α → Except ε β} {b b' : β} {a : α}
    (h : f b a = .ok b') (rest : List α) : (a :: rest).foldlM f b = rest.foldlM f b' := by
  rw [List.foldlM_cons, h]
  rfl

theorem factorSetting_uint32 (n : UInt32) : factorSetting (.integer n.toNat) = .ok n := by
  have hlt := n.toNat_lt
  have hfits : Toml.fitsUnsigned 32 (n.toNat : Int) = true := by
    simp [Toml.fitsUnsigned]
    omega
  rw [factorSetting, if_pos hfits, Int.toNat_natCast]
  exact congrArg Except.ok n.ofNat_toNat

theorem policySetting_name (policy : BoostPolicy) :
    policySetting (.string policy.name) = .ok policy := by
  cases policy <;> rfl

variable (raw : RawCompile)

theorem take_catchAllField (s : String) :
    raw.take ("catch_all_field", .string s) = .ok { raw with catchAllField := some s } := by
  simp only [RawCompile.take, if_true]
  rfl

theorem take_boostModifier (s : String) :
    raw.take ("boost_modifier", .string s) = .ok { raw with boostModifier := some s } := by
  simp only [RawCompile.take, String.reduceEq, if_false, if_true]
  rfl

theorem take_boostFactor (n : UInt32) :
    raw.take ("boost_factor", .integer n.toNat) = .ok { raw with boostFactor := some n } := by
  simp only [RawCompile.take, String.reduceEq, if_false, if_true, factorSetting_uint32]
  rfl

theorem take_boostPolicy (policy : BoostPolicy) :
    raw.take ("boost_precedence", .string policy.name) =
      .ok { raw with boostPolicy := some policy } := by
  simp only [RawCompile.take, String.reduceEq, if_false, if_true, policySetting_name]
  rfl

theorem decode_table {entries : Entries Value} {raw : RawCompile}
    (h : entries.foldlM RawCompile.take {} = .ok raw) : RawCompile.decode (.table entries) = .ok raw :=
  h

theorem decode_compile (s : Settings) : RawCompile.decode (.table s.entries) = .ok s.raw := by
  apply decode_table
  rw [Settings.entries, foldlM_cons_ok (take_boostFactor _ _),
    foldlM_cons_ok (take_boostModifier _ _), foldlM_cons_ok (take_boostPolicy _ _),
    foldlM_cons_ok (take_catchAllField _ _)]
  rfl

theorem decode_output (s : OutputSettings) : RawOutput.decode (.table s.entries) = .ok s.raw :=
  rfl

theorem decode_document (c : Config) : RawConfig.decode c.document = .ok c.raw := by
  have hcompile : RawConfig.take {} ("compile", .table c.compile.entries) =
      .ok { compile := some c.compile.raw } := by
    simp only [RawConfig.take, String.reduceEq, if_false, if_true, decode_compile]
    rfl
  have houtput : RawConfig.take { compile := some c.compile.raw }
      ("output", .table c.output.entries) = .ok c.raw := by
    simp only [RawConfig.take, String.reduceEq, if_false, if_true, decode_output]
    rfl
  rw [RawConfig.decode, Config.document, foldlM_cons_ok hcompile, foldlM_cons_ok houtput]
  rfl

theorem parse_of_decode {text : String} {document : Entries Value} {raw : RawConfig}
    (hp : Toml.parse? text = some document) (hd : RawConfig.decode document = .ok raw) :
    RawConfig.parse text = .ok raw := by
  rw [RawConfig.parse, hp]
  simp only [hd]

end Decoded

/-- The settings in force, printed, are a configuration file that is read without a fault and does not
call itself the root. By itself it amounts to the same settings, so every text compiles under them, with
any options, to the same query or error. -/
theorem settings_read_back (c : Config) :
    ∃ raw, RawConfig.parse c.toToml = .ok raw ∧ raw.root = none ∧
      ∀ path, (Config.merge [⟨path, raw⟩]).compile = c.compile ∧
        (Config.merge [⟨path, raw⟩]).output = c.output ∧
        ∀ (o : SearchOptions) (text : String),
          o.compile (Config.merge [⟨path, raw⟩]).compile text = o.compile c.compile text := by
  refine ⟨c.raw, parse_of_decode (parse?_toToml c) (decode_document c), rfl, fun path => ?_⟩
  have hcompile : (Config.merge [⟨path, c.raw⟩]).compile = c.compile := rfl
  have houtput : (Config.merge [⟨path, c.raw⟩]).output = c.output := rfl
  refine ⟨hcompile, houtput, fun o text => ?_⟩
  rw [hcompile]

end SearchCompiler
