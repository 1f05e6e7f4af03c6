import SearchCompiler.Config.Basic

/-!
The settings of a configuration one by one. Where several files define a setting, the first of them
decides it.
-/

namespace SearchCompiler

inductive SettingName where
  | catchAllField
  | boostModifier
  | boostFactor
  | boostPolicy
  | pretty
  | color
deriving DecidableEq

/-- What a setting is set to. -/
abbrev SettingName.Value : SettingName → Type
  | .catchAllField => String
  | .boostModifier => String
  | .boostFactor => UInt32
  | .boostPolicy => BoostPolicy
  | .pretty => Bool
  | .color => Bool

/-- The value that a file defines for a setting, if it has the section and the setting in it. -/
def RawConfig.get? (raw : RawConfig) : (s : SettingName) → Option s.Value
  | .catchAllField => raw.compile.bind RawCompile.catchAllField
  | .boostModifier => raw.compile.bind RawCompile.boostModifier
  | .boostFactor => raw.compile.bind RawCompile.boostFactor
  | .boostPolicy => raw.compile.bind RawCompile.boostPolicy
  | .pretty => raw.output.bind RawOutput.pretty
  | .color => raw.output.bind RawOutput.color

/-- The value of a setting in force. -/
def Config.get (c : Config) : (s : SettingName) → s.Value
  | .catchAllField => c.compile.catchAllField
  | .boostModifier => c.compile.boostModifier
  | .boostFactor => c.compile.boostFactor
  | .boostPolicy => c.compile.boostPolicy
  | .pretty => c.output.pretty
  | .color => c.output.color

theorem getD_bind {α β : Type} (x : Option α) (f : α → Option β) (empty : α) (h : f empty = none)
    (d : β) : (f (x.getD empty)).getD d = (x.bind f).getD d := by
  cases x with
  | none => rw [Option.getD_none, h, Option.bind_none]
  | some a => rfl

/-- A file before others decides the settings that it defines and leaves the rest to them. -/
theorem get_merge_cons (file : ConfigFile) (others : List ConfigFile) (s : SettingName) :
    (Config.merge (file :: others)).get s =
      (file.raw.get? s).getD ((Config.merge others).get s) := by
  cases s with
  | catchAllField => exact getD_bind file.raw.compile RawCompile.catchAllField {} rfl _
  | boostModifier => exact getD_bind file.raw.compile RawCompile.boostModifier {} rfl _
  | boostFactor => exact getD_bind file.raw.compile RawCompile.boostFactor {} rfl _
  | boostPolicy => exact getD_bind file.raw.compile RawCompile.boostPolicy {} rfl _
  | pretty => exact getD_bind file.raw.output RawOutput.pretty {} rfl _
  | color => exact getD_bind file.raw.output RawOutput.color {} rfl _

/-- A setting is what the first file that defines it says, and its default where no file does. -/
theorem get_merge (files : List ConfigFile) (s : SettingName) :
    (Config.merge files).get s =
      (files.findSome? fun file => file.raw.get? s).getD (Config.get {} s) := by
  induction files with
  | nil => cases s <;> rfl
  | cons file others ih =>
    rw [get_merge_cons, ih, List.findSome?_cons]
    cases file.raw.get? s <;> rfl

section Deciding

variable {files first before : List ConfigFile} {file : ConfigFile} {s : SettingName}

/-- Files in front that do not define a setting leave it to the others. -/
theorem get_merge_of_undefined (h : ∀ file ∈ first, file.raw.get? s = none)
    (second : List ConfigFile) :
    (Config.merge (first ++ second)).get s = (Config.merge second).get s := by
  have hnone : (first.findSome? fun file => file.raw.get? s) = none :=
    List.findSome?_eq_none_iff.mpr h
  rw [get_merge, get_merge, List.findSome?_append, hnone]
  rfl

/-- The first file that defines a setting gives it its value. -/
theorem get_merge_of_first (hbefore : ∀ earlier ∈ before, earlier.raw.get? s = none)
    {value : s.Value} (hfile : file.raw.get? s = some value) (after : List ConfigFile) :
    (Config.merge (before ++ file :: after)).get s = value := by
  rw [get_merge_of_undefined hbefore, get_merge_cons, hfile]
  rfl

/-- Where some file defines a setting there is a first one that does. -/
theorem exists_first_defining (h : ∃ file ∈ files, (file.raw.get? s).isSome = true) :
    ∃ before file after value, files = before ++ file :: after ∧
      (∀ earlier ∈ before, earlier.raw.get? s = none) ∧ file.raw.get? s = some value := by
  have hsome : (files.findSome? fun file => file.raw.get? s).isSome = true :=
    List.findSome?_isSome_iff.mpr h
  obtain ⟨value, hv⟩ := Option.isSome_iff_exists.mp hsome
  obtain ⟨before, file, after, hfiles, hf, hbefore⟩ := List.findSome?_eq_some_iff.mp hv
  exact ⟨before, file, after, value, hfiles, hbefore, hf⟩

/-- A setting that some file defines takes the value of a file that stands no later. -/
theorem exists_get?_of_merge (h : ∃ file ∈ first, (file.raw.get? s).isSome = true)
    (second : List ConfigFile) :
    ∃ file ∈ first, file.raw.get? s = some ((Config.merge (first ++ second)).get s) := by
  obtain ⟨before, file, after, value, rfl, hbefore, hfile⟩ := exists_first_defining h
  refine ⟨file, by simp, ?_⟩
  rw [List.append_assoc, List.cons_append, get_merge_of_first hbefore hfile, hfile]

end Deciding

end SearchCompiler
