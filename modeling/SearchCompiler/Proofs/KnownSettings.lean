import Mathlib
import SearchCompiler.Proofs.TomlTables
import SearchCompiler.Proofs.WrittenSettings

/-!
A configuration file is read by the names of its settings. Whatever else stands in it, in whichever
order and spelling, it is read exactly if the known settings fit, provided that every number in it
can be read; and what it is read to is told by the values of the known settings alone.
-/

namespace SearchCompiler

open Toml (Value)

/-- The entries of a table in a document, if there is a table under the name. -/
def tableAt (name : String) (document : Entries Value) : Option (Entries Value) :=
  match document.lookup name with
  | some (.table entries) => some entries
  | _ => none

/-- What a document holds for a setting. -/
def SettingName.valueIn (s : SettingName) (document : Entries Toml.Value) : Option Toml.Value :=
  (tableAt s.sectionName document).bind fun entries => entries.lookup s.key

/-- A document that has only tables under the names of sections, and for no setting in them an
array, a table or a date. -/
structure Ordinary (document : Entries Value) : Prop where
  sections : ∀ name ∈ ["compile", "output"], ∀ v, document.lookup name = some v →
    ∃ entries, v = .table entries
  settings : ∀ (s : SettingName) (v), s.valueIn document = some v → v.isSimple = true

/-- Documents that hold the same settings in the same sections. -/
structure SameSettings (document other : Entries Value) : Prop where
  root : document.lookup "root" = other.lookup "root"
  sections : ∀ name ∈ ["compile", "output"],
    (tableAt name document).isSome = (tableAt name other).isSome
  settings : ∀ s : SettingName, s.valueIn document = s.valueIn other

/-- The value of the root in a document is a truth value, if there is one. -/
def RootFits (document : Entries Value) : Prop :=
  ∀ v, document.lookup "root" = some v → ∃ b, v = .boolean b

/-- A configuration file holds what a document does, setting by setting, and no setting besides. -/
structure Describes (document : Entries Value) (raw : RawConfig) : Prop where
  root : document.lookup "root" = raw.root.map .boolean
  compile : (tableAt "compile" document).isSome = raw.compile.isSome
  output : (tableAt "output" document).isSome = raw.output.isSome
  settings : ∀ s : SettingName, s.valueIn document = (raw.get? s).map s.written

section Documents

variable {document : Entries Value} {name : String} {entries : Entries Value}

theorem tableAt_eq_some_iff :
    tableAt name document = some entries ↔ document.lookup name = some (.table entries) := by
  unfold tableAt
  split
  · next found hfound => rw [hfound, Option.some.injEq, Option.some.injEq, Value.table.injEq]
  · next hne => exact iff_of_false nofun (hne entries)

theorem valueIn_eq_some_iff {s : SettingName} {v : Value} :
    s.valueIn document = some v ↔ ∃ entries,
      document.lookup s.sectionName = some (.table entries) ∧ entries.lookup s.key = some v := by
  simp only [SettingName.valueIn, Option.bind_eq_some_iff, tableAt_eq_some_iff]

theorem valueIn_of_table {s : SettingName}
    (h : document.lookup s.sectionName = some (.table entries)) :
    s.valueIn document = entries.lookup s.key := by
  rw [SettingName.valueIn, tableAt_eq_some_iff.mpr h, Option.bind_some]

theorem valueIn_of_lookup_none {s : SettingName} (h : document.lookup s.sectionName = none) :
    s.valueIn document = none := by
  rw [SettingName.valueIn, tableAt, h]
  rfl

theorem nodup_keys_table (hd : (Value.table document).Distinct)
    (h : document.lookup name = some (.table entries)) : entries.keys.Nodup :=
  (hd.of_mem ((Entries.lookup_eq_some_iff hd.nodup_keys).mp h)).nodup_keys

theorem simple_of_ordinary (ho : Ordinary document)
    (h : document.lookup name = some (.table entries)) :
    OfSettings name entries fun _ v => v.isSimple = true := by
  rintro s rfl v hv
  exact ho.settings s v ((valueIn_of_table h).trans hv)

theorem ordinary_of_all
    (hcompile : document.lookup "compile" = (tableAt "compile" document).map .table)
    (houtput : document.lookup "output" = (tableAt "output" document).map .table)
    (hsettings : ∀ s : SettingName, (s.valueIn document).all Value.isSimple = true) :
    Ordinary document := by
  have hsections : ∀ name ∈ ["compile", "output"],
      document.lookup name = (tableAt name document).map .table :=
    List.forall_mem_cons.mpr ⟨hcompile, List.forall_mem_singleton.mpr houtput⟩
  refine ⟨fun name hname v hv => ?_, fun s v hv => ?_⟩
  · rw [hsections name hname] at hv
    obtain ⟨entries, _, rfl⟩ := Option.map_eq_some_iff.mp hv
    exact ⟨entries, rfl⟩
  · have hall := hsettings s
    rwa [hv, Option.all_some] at hall

variable {R : Type} {take : R → String × Value → Except Misfit R}
  {get : R → (s : SettingName) → Option s.Value} {set : R → (s : SettingName) → s.Value → R}
  {start : R}

/-- A section is taken exactly if all that it holds can be read and its settings fit. -/
theorem TakesSettings.exists_section_iff (ht : TakesSettings name take get set)
    (hd : (Value.table document).Distinct) (ho : Ordinary document)
    (h : document.lookup name = some (.table entries)) :
    (∃ raw, entries.foldlM take start = .ok raw) ↔ entriesReadable entries = true ∧
      ∀ s : SettingName, s.sectionName = name → ∀ v, s.valueIn document = some v → s.Fits v := by
  rw [ht.exists_foldlM_iff (nodup_keys_table hd h) (simple_of_ordinary ho h)]
  refine and_congr_right fun _ => ⟨?_, ?_⟩
  · rintro hfits s rfl v hv
    exact hfits s rfl v ((valueIn_of_table h).symm.trans hv)
  · rintro hfits s rfl v hv
    exact hfits s rfl v ((valueIn_of_table h).trans hv)

/-- A section is there exactly if the document has it, and then holds the settings that the document
has in it. -/
theorem TakesSettings.section_held (ht : TakesSettings name take get set)
    (hd : (Value.table document).Distinct) (ho : Ordinary document)
    (hname : name ∈ ["compile", "output"]) {decode : Value → Except Misfit R} {slot : Option R}
    (hdecode : ∀ entries, decode (.table entries) = entries.foldlM take start)
    (hstart : ∀ s, get start s = none)
    (hslot : slot = ((document.lookup name).map fun v => (decode v).toOption).getD none)
    (hok : ∀ entries, document.lookup name = some (.table entries) →
      ∃ raw, entries.foldlM take start = .ok raw) :
    (tableAt name document).isSome = slot.isSome ∧
      ∀ s : SettingName, s.sectionName = name →
        s.valueIn document = (slot.bind fun raw => get raw s).map s.written := by
  cases hv : document.lookup name with
  | none =>
    obtain rfl : slot = none := by rw [hslot, hv]; rfl
    refine ⟨by rw [tableAt, hv]; rfl, ?_⟩
    rintro s rfl
    exact valueIn_of_lookup_none hv
  | some v =>
    obtain ⟨entries, rfl⟩ := ho.sections name hname v hv
    obtain ⟨raw, hraw⟩ := hok entries hv
    obtain rfl : slot = some raw := by
      rw [hslot, hv, Option.map_some, Option.getD_some, hdecode, hraw]
      rfl
    refine ⟨by rw [tableAt_eq_some_iff.mpr hv]; rfl, ?_⟩
    rintro s rfl
    rw [valueIn_of_table hv, Option.bind_some]
    exact ht.lookup_of_foldlM (nodup_keys_table hd hv) (simple_of_ordinary ho hv) hraw rfl
      (hstart s)

/-- An entry is taken exactly if all that it holds can be read, the root is a truth value and the
settings of the section fit, if it is that. -/
theorem exists_take_iff (hd : (Value.table document).Distinct) (ho : Ordinary document)
    {entry : String × Value} (he : document.lookup entry.1 = some entry.2) (raw : RawConfig) :
    (∃ raw', raw.take entry = .ok raw') ↔ entry.2.isReadable = true ∧
      (entry.1 = "root" → ∃ b, entry.2 = .boolean b) ∧
      ∀ s : SettingName, s.sectionName = entry.1 →
        ∀ v, s.valueIn document = some v → s.Fits v := by
  obtain ⟨key, v⟩ := entry
  -- Settings stand in sections only, so other entries have none to fit.
  have hno (hcompile : key ≠ "compile") (houtput : key ≠ "output") (s : SettingName) :
      s.sectionName ≠ key := by
    rintro rfl
    exact (sectionName_cases s).elim hcompile houtput
  by_cases hroot : key = "root"
  · subst hroot
    have htake : (∃ raw', raw.take ("root", v) = .ok raw') ↔ ∃ b, truthSetting v = .ok b :=
      exists_ok_map
    simp only [htake, truthSetting_eq_ok_iff]
    constructor
    · rintro ⟨b, rfl⟩
      exact ⟨rfl, fun _ => ⟨b, rfl⟩, fun s hs => absurd hs (hno (by decide) (by decide) s)⟩
    · rintro ⟨_, hb, _⟩
      exact hb trivial
  by_cases hcompile : key = "compile"
  · subst hcompile
    obtain ⟨entries, rfl⟩ := ho.sections "compile" (by decide) v he
    have htake : (∃ raw', raw.take ("compile", .table entries) = .ok raw') ↔
      ∃ c, entries.foldlM RawCompile.take {} = .ok c := exists_ok_map
    rw [htake, takesSettings_compile.exists_section_iff hd ho he]
    exact and_congr_right fun _ => (and_iff_right fun h => absurd h hroot).symm
  by_cases houtput : key = "output"
  · subst houtput
    obtain ⟨entries, rfl⟩ := ho.sections "output" (by decide) v he
    have htake : (∃ raw', raw.take ("output", .table entries) = .ok raw') ↔
      ∃ c, entries.foldlM RawOutput.take {} = .ok c := exists_ok_map
    rw [htake, takesSettings_output.exists_section_iff hd ho he]
    exact and_congr_right fun _ => (and_iff_right fun h => absurd h hroot).symm
  · rw [RawConfig.take, if_neg hroot, if_neg hcompile, if_neg houtput, exists_passOver_iff]
    exact (and_iff_left ⟨fun h => absurd h hroot,
      fun s hs => absurd hs (hno hcompile houtput s)⟩).symm

/-- A document is read exactly if every number in it can be and its root and its settings fit. -/
theorem exists_decode_document_iff (hd : (Value.table document).Distinct) (ho : Ordinary document) :
    (∃ raw, RawConfig.decode document = .ok raw) ↔ entriesReadable document = true ∧
      RootFits document ∧ ∀ (s : SettingName) (v), s.valueIn document = some v → s.Fits v := by
  have hlookup : ∀ {key : String} {v : Value}, document.lookup key = some v ↔ (key, v) ∈ document :=
    Entries.lookup_eq_some_iff hd.nodup_keys
  rw [RawConfig.decode, exists_foldlM_iff fun raw entry he =>
    exists_take_iff hd ho (hlookup.mpr he) raw, entriesReadable_iff]
  constructor
  · intro h
    refine ⟨fun entry he => (h entry he).1, fun v hv => (h _ (hlookup.mp hv)).2.1 rfl,
      fun s v hv => ?_⟩
    obtain ⟨entries, htable, _⟩ := valueIn_eq_some_iff.mp hv
    exact (h _ (hlookup.mp htable)).2.2 s rfl v hv
  · rintro ⟨hreadable, hroot, hfits⟩ entry he
    exact ⟨hreadable entry he, fun hk => hroot _ (hlookup.mpr (hk ▸ he)), fun s _ => hfits s⟩

/-- Taking an entry sets the root or the section whose name it stands under. -/
theorem held_of_take {raw raw' : RawConfig} {entry : String × Value}
    (h : raw.take entry = .ok raw') :
    raw'.root = (if entry.1 = "root" then (truthSetting entry.2).toOption else raw.root) ∧
    raw'.compile =
      (if entry.1 = "compile" then (RawCompile.decode entry.2).toOption else raw.compile) ∧
    raw'.output =
      (if entry.1 = "output" then (RawOutput.decode entry.2).toOption else raw.output) := by
  obtain ⟨key, v⟩ := entry
  by_cases hroot : key = "root"
  · subst hroot
    obtain ⟨b, hb, h⟩ := bind_eq_ok_iff.mp (show (truthSetting v >>= _) = .ok raw' from h)
    cases h
    exact ⟨by rw [if_pos rfl, hb]; rfl, rfl, rfl⟩
  by_cases hcompile : key = "compile"
  · subst hcompile
    obtain ⟨c, hc, h⟩ := bind_eq_ok_iff.mp (show (RawCompile.decode v >>= _) = .ok raw' from h)
    cases h
    exact ⟨rfl, by rw [if_pos rfl, hc]; rfl, rfl⟩
  by_cases houtput : key = "output"
  · subst houtput
    obtain ⟨o, ho, h⟩ := bind_eq_ok_iff.mp (show (RawOutput.decode v >>= _) = .ok raw' from h)
    cases h
    exact ⟨rfl, rfl, by rw [if_pos rfl, ho]; rfl⟩
  · rw [RawConfig.take, if_neg hroot, if_neg hcompile, if_neg houtput] at h
    rw [if_neg hroot, if_neg hcompile, if_neg houtput, eq_of_passOver h]
    exact ⟨rfl, rfl, rfl⟩

/-- A document that is read is described by what it is read to. -/
theorem describes_of_decode (hd : (Value.table document).Distinct) (ho : Ordinary document)
    {raw : RawConfig} (h : RawConfig.decode document = .ok raw) : Describes document raw := by
  have hlookup : ∀ {key : String} {v : Value}, document.lookup key = some v ↔ (key, v) ∈ document :=
    Entries.lookup_eq_some_iff hd.nodup_keys
  obtain ⟨hreadable, hroot, hfits⟩ := (exists_decode_document_iff hd ho).mp ⟨raw, h⟩
  have hsection : ∀ {key : String} {entries : Entries Value},
      document.lookup key = some (.table entries) → entriesReadable entries = true :=
    fun hv => entriesReadable_iff.mp hreadable _ (hlookup.mp hv)
  -- No name stands twice, so the root and the sections are what the one entry of each is read to.
  have hr : raw.root =
      ((document.lookup "root").map fun v => (truthSetting v).toOption).getD none :=
    held_of_foldlM RawConfig.root (fun _ _ _ _ ht => (held_of_take ht).1) hd.nodup_keys h
  have hc : raw.compile =
      ((document.lookup "compile").map fun v => (RawCompile.decode v).toOption).getD none :=
    held_of_foldlM RawConfig.compile (fun _ _ _ _ ht => (held_of_take ht).2.1) hd.nodup_keys h
  have hout : raw.output =
      ((document.lookup "output").map fun v => (RawOutput.decode v).toOption).getD none :=
    held_of_foldlM RawConfig.output (fun _ _ _ _ ht => (held_of_take ht).2.2) hd.nodup_keys h
  have hcompile := takesSettings_compile.section_held hd ho (by decide) (fun _ => rfl)
    (fun s => by cases s <;> rfl) hc
    fun entries hv => (takesSettings_compile.exists_section_iff hd ho hv).mpr
      ⟨hsection hv, fun s _ => hfits s⟩
  have houtput := takesSettings_output.section_held hd ho (by decide) (fun _ => rfl)
    (fun s => by cases s <;> rfl) hout
    fun entries hv => (takesSettings_output.exists_section_iff hd ho hv).mpr
      ⟨hsection hv, fun s _ => hfits s⟩
  refine ⟨?_, hcompile.1, houtput.1, fun s => ?_⟩
  · cases hv : document.lookup "root" with
    | none => rw [hr, hv]; rfl
    | some v =>
      obtain ⟨b, rfl⟩ := hroot v hv
      rw [hr, hv]
      rfl
  · rcases sectionName_cases s with hs | hs
    · rw [hcompile.2 s hs, get?_of_compile hs]
    · rw [houtput.2 s hs, get?_of_output hs]

/-- Files with the same root, the same sections and the same settings are the same. -/
theorem RawConfig.ext_get? {raw raw' : RawConfig} (hroot : raw.root = raw'.root)
    (hcompile : raw.compile.isSome = raw'.compile.isSome)
    (houtput : raw.output.isSome = raw'.output.isSome) (hget : ∀ s, raw.get? s = raw'.get? s) :
    raw = raw' := by
  obtain ⟨root, compile, output⟩ := raw
  obtain ⟨root', compile', output'⟩ := raw'
  obtain rfl : root = root' := hroot
  obtain rfl : compile = compile' := by
    rcases compile with _ | ⟨field, modifier, factor, policy⟩ <;>
      rcases compile' with _ | ⟨field', modifier', factor', policy'⟩
    · rfl
    · cases hcompile
    · cases hcompile
    · obtain rfl : field = field' := hget .catchAllField
      obtain rfl : modifier = modifier' := hget .boostModifier
      obtain rfl : factor = factor' := hget .boostFactor
      obtain rfl : policy = policy' := hget .boostPolicy
      rfl
  obtain rfl : output = output' := by
    rcases output with _ | ⟨pretty, color⟩ <;> rcases output' with _ | ⟨pretty', color'⟩
    · rfl
    · cases houtput
    · cases houtput
    · obtain rfl : pretty = pretty' := hget .pretty
      obtain rfl : color = color' := hget .color
      rfl
  rfl

variable {document' : Entries Value}

theorem SameSettings.symm (h : SameSettings document document') :
    SameSettings document' document where
  root := h.root.symm
  sections name hname := (h.sections name hname).symm
  settings s := (h.settings s).symm

theorem eq_of_describes {raw raw' : RawConfig} (hsame : SameSettings document document')
    (h : Describes document raw) (h' : Describes document' raw') : raw = raw' := by
  refine RawConfig.ext_get? ?_ ?_ ?_ fun s => ?_
  · have hroot := h.root.symm.trans (hsame.root.trans h'.root)
    exact Option.map_injective (fun _ _ he => Value.boolean.inj he) hroot
  · exact h.compile.symm.trans ((hsame.sections "compile" (by decide)).trans h'.compile)
  · exact h.output.symm.trans ((hsame.sections "output" (by decide)).trans h'.output)
  · have hs := (h.settings s).symm.trans ((hsame.settings s).trans (h'.settings s))
    exact Option.map_injective (fun _ _ he => written_injective he) hs

/-- What a document is read to is told by its settings, once its numbers can be read. -/
theorem decode_of_sameSettings (hd : (Value.table document).Distinct)
    (hd' : (Value.table document').Distinct) (ho : Ordinary document) (ho' : Ordinary document')
    (hsame : SameSettings document document')
    (hread : entriesReadable document = entriesReadable document') {raw : RawConfig}
    (h : RawConfig.decode document = .ok raw) : RawConfig.decode document' = .ok raw := by
  -- The conditions for reading look at nothing but what the two documents share.
  have haccepted : ∃ raw', RawConfig.decode document' = .ok raw' := by
    obtain ⟨hreadable, hroot, hfits⟩ := (exists_decode_document_iff hd ho).mp ⟨raw, h⟩
    refine (exists_decode_document_iff hd' ho').mpr
      ⟨hread ▸ hreadable, fun v hv => ?_, fun s v hv => ?_⟩
    · exact hroot v (hsame.root.trans hv)
    · exact hfits s v ((hsame.settings s).trans hv)
  obtain ⟨raw', h'⟩ := haccepted
  rw [h', eq_of_describes hsame (describes_of_decode hd ho h) (describes_of_decode hd' ho' h')]

theorem parse_eq_ok_iff_decode {text : String} (hp : Toml.parse? text = some document)
    {raw : RawConfig} : RawConfig.parse text = .ok raw ↔ RawConfig.decode document = .ok raw := by
  rw [RawConfig.parse, hp]
  cases h : RawConfig.decode document with
  | ok found => simp only [h, Except.ok.injEq]
  | error cause => simp only [h, reduceCtorEq]

end Documents

/-- A text with ordinary values for its settings is read exactly if every number in it can be, its
root is a truth value and its settings fit. What it is read to holds the settings as they are
written and no others. Two such texts with the same settings, in which numbers can be read or in
both of which they cannot, are read to the same. -/
theorem settings_read_by_name {text : String} {document : Entries Value}
    (hp : Toml.parse? text = some document) (ho : Ordinary document) :
    ((∃ raw, RawConfig.parse text = .ok raw) ↔ entriesReadable document = true ∧
      RootFits document ∧ ∀ (s : SettingName) (v), s.valueIn document = some v → s.Fits v) ∧
    (∀ raw, RawConfig.parse text = .ok raw → Describes document raw) ∧
    ∀ text' document', Toml.parse? text' = some document' → Ordinary document' →
      SameSettings document document' → entriesReadable document = entriesReadable document' →
      ∀ raw, RawConfig.parse text = .ok raw ↔ RawConfig.parse text' = .ok raw := by
  have hd := Toml.distinct_of_parse? hp
  refine ⟨?accepted, ?kept, ?told⟩
  case accepted =>
    simp only [parse_eq_ok_iff_decode hp]
    exact exists_decode_document_iff hd ho
  case kept =>
    intro raw h
    exact describes_of_decode hd ho ((parse_eq_ok_iff_decode hp).mp h)
  case told =>
    intro text' document' hp' ho' hsame hread raw
    have hd' := Toml.distinct_of_parse? hp'
    rw [parse_eq_ok_iff_decode hp, parse_eq_ok_iff_decode hp']
    exact ⟨decode_of_sameSettings hd hd' ho ho' hsame hread,
      decode_of_sameSettings hd' hd ho' ho hsame.symm hread.symm⟩

/-- Headers in one text, braces and a dotted name in another, with a name in it that no setting has.
-/
theorem settings_read_by_name_spelled :
    let text := "[compile]\nboost_precedence = \"reject\"\n[output]\ncolor = false\n"
    let text' := "output = \x7b color = false \x7d\nx = [[]]\ncompile.boost_precedence = 'reject'\n"
    let document : Entries Value :=
      [("compile", .table [("boost_precedence", .string "reject")]),
        ("output", .table [("color", .boolean false)])]
    let document' := document ++ [("x", .array [.array []])]
    let raw : RawConfig :=
      { compile := some { boostPolicy := some .reject }, output := some { color := some false } }
    Toml.parse? text = some document ∧ Toml.parse? text' = some document' ∧
      Ordinary document ∧ Ordinary document' ∧ SameSettings document document' ∧
      RawConfig.parse text = .ok raw ∧ RawConfig.parse text' = .ok raw := by
  have hp : Toml.parse? "[compile]\nboost_precedence = \"reject\"\n[output]\ncolor = false\n" =
      some [("compile", .table [("boost_precedence", .string "reject")]),
        ("output", .table [("color", .boolean false)])] := by cbv
  have hp' : Toml.parse?
      "output = \x7b color = false \x7d\nx = [[]]\ncompile.boost_precedence = 'reject'\n" =
      some [("compile", .table [("boost_precedence", .string "reject")]),
        ("output", .table [("color", .boolean false)]), ("x", .array [.array []])] := by cbv
  intro text text' document document' raw
  have hsame : SameSettings document document' := by
    refine ⟨rfl, by decide, fun s => ?_⟩
    cases s <;> rfl
  have ho : Ordinary document := ordinary_of_all rfl rfl fun s => by cases s <;> rfl
  have ho' : Ordinary document' := ordinary_of_all rfl rfl fun s => by cases s <;> rfl
  have hraw : RawConfig.parse text = .ok raw := by
    rw [parse_eq_ok_iff_decode hp]
    rfl
  obtain ⟨_, _, htold⟩ := settings_read_by_name hp ho
  exact ⟨hp, hp', ho, ho', hsame, hraw,
    (htold text' document' hp' ho' hsame (by decide) raw).mp hraw⟩

section Overflow

theorem decimal?_overflow :
    Toml.decimal? ['1', 'e', '3', '0', '9'] = some (Toml.nearestDouble 1 309) := by
  have hexponent : Toml.cutAt (fun c => c == 'e' || c == 'E') ['1', 'e', '3', '0', '9'] =
      (['1'], some ['3', '0', '9']) := by decide
  have hpoint : Toml.cutAt (· == '.') ['1'] = (['1'], none) := by decide
  have hdigits : Toml.wholeDigits ['1'] = some [1] := by decide
  have hvalue : Toml.exponent? (some ['3', '0', '9']) = some 309 := by decide
  simp [Toml.decimal?, hexponent, hpoint, hdigits, hvalue, Toml.digitValue]

/-- The text of a number that no double is near to. -/
theorem plainValue?_overflow : Toml.plainValue? ['1', 'e', '3', '0', '9'] = some .huge := by
  -- The rounding works on a number of 310 digits, which is for the kernel to compute.
  have hinf : (Toml.nearestDouble 1 309).isInf = true := by decide +kernel
  have hsign : Toml.cutSign ['1', 'e', '3', '0', '9'] = (false, ['1', 'e', '3', '0', '9']) := by
    decide
  have hfloat : Toml.float? ['1', 'e', '3', '0', '9'] = some .huge := by
    simp [Toml.float?, hsign, decimal?_overflow, hinf]
  have hwhole : Toml.wholeNumber? ['1', 'e', '3', '0', '9'] = none := by decide
  rw [Toml.plainValue?, if_neg (by decide), if_neg (by decide), hwhole]
  simp only [hfloat]

theorem parse?_overflow : Toml.parse? "note = 1e309\n" = some [("note", .huge)] := by
  have hlines : ∀ line ∈ [valueLine "note" "1e309" .huge], Toml.ReadsAs line.1 line.2 :=
    List.forall_mem_singleton.mpr
      (readsAs_valueLine (by decide) (Toml.written_word (by decide) plainValue?_overflow))
  rw [Toml.parse?_of_lines (by decide) (by decide) hlines]
  rfl

/-- The settings do not tell alone whether a file is read: a number that cannot be read is a fault
under any name. -/
theorem unreadable_number_refused :
    Toml.parse? "" = some [] ∧ Toml.parse? "note = 1e309\n" = some [("note", .huge)] ∧
      Ordinary [] ∧ Ordinary [("note", .huge)] ∧ SameSettings [] [("note", .huge)] ∧
      RawConfig.parse "" = .ok {} ∧
      RawConfig.parse "note = 1e309\n" = .error (.misfit .unreadable) := by
  have hempty : Ordinary [] := ordinary_of_all rfl rfl fun s => by cases s <;> rfl
  have hnote : Ordinary [("note", .huge)] := ordinary_of_all rfl rfl fun s => by cases s <;> rfl
  have hsame : SameSettings [] [("note", .huge)] := by
    refine ⟨rfl, by decide, fun s => ?_⟩
    cases s <;> rfl
  refine ⟨rfl, parse?_overflow, hempty, hnote, hsame, rfl, ?_⟩
  rw [RawConfig.parse, parse?_overflow]
  rfl

end Overflow

end SearchCompiler
