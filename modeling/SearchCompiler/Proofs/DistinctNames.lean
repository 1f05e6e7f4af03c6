import SearchCompiler.Json.Reader
import SearchCompiler.Proofs.Stages

/-!
Objects hold no name twice. The reader builds every object by insertion, so that each value read
from a text has this property at any depth; what is said of JSON values with distinct names is said
of every value that can be read.
-/

namespace SearchCompiler.Json

/-- A value in which no object, at any depth, holds a name twice. -/
inductive Value.Distinct : Value → Prop
  | null : Distinct .null
  | bool (value : Bool) : Distinct (.bool value)
  | number (value : Number) : Distinct (.number value)
  | string (value : String) : Distinct (.string value)
  | array {items : List Value} : (∀ item ∈ items, item.Distinct) → Distinct (.array items)
  | object {members : Entries Value} :
    members.keys.Nodup → (∀ member ∈ members, member.2.Distinct) → Distinct (.object members)

/-- All that a reader gives has a property. -/
def Yields {α : Type} (P : α → Prop) (read : Reader α) : Prop :=
  ∀ ⦃cs x rest⦄, read cs = .ok (x, rest) → P x

theorem number_eq_ok {negative : Bool} {cs rest : List Char} {v : Value}
    (h : number negative cs = .ok (v, rest)) : ∃ n, v = .number n := by
  unfold number at h
  obtain ⟨⟨whole, cs⟩, _, h⟩ := bind_eq_ok_iff.mp h
  obtain ⟨⟨fraction, cs⟩, _, h⟩ := bind_eq_ok_iff.mp h
  obtain ⟨⟨exponent, cs⟩, _, h⟩ := bind_eq_ok_iff.mp h
  dsimp only at h
  split at h
  · next n _ =>
    cases h
    exact ⟨n, rfl⟩
  · cases h

section

variable {item : Reader Value} (hi : Yields Value.Distinct item)

include hi

theorem yields_moreItems (steps : Nat) :
    Yields (fun vs => ∀ v ∈ vs, v.Distinct) (moreItems item steps) := by
  induction steps with
  | zero => intro cs x rest h; cases h
  | succ steps ih =>
    intro cs x rest h
    unfold moreItems at h
    split at h
    · cases h
    · cases h
      exact List.forall_mem_nil _
    · split at h
      · cases h
      · cases h
      · obtain ⟨⟨v, after⟩, hv, h⟩ := bind_eq_ok_iff.mp h
        obtain ⟨⟨vs, after'⟩, hvs, h⟩ := bind_eq_ok_iff.mp h
        cases h
        exact List.forall_mem_cons.mpr ⟨hi hv, ih hvs⟩
    · cases h

theorem yields_items : Yields (fun vs => ∀ v ∈ vs, v.Distinct) (items item) := by
  intro cs x rest h
  unfold items at h
  split at h
  · cases h
  · cases h
    exact List.forall_mem_nil _
  · obtain ⟨⟨v, after⟩, hv, h⟩ := bind_eq_ok_iff.mp h
    obtain ⟨⟨vs, after'⟩, hvs, h⟩ := bind_eq_ok_iff.mp h
    cases h
    exact List.forall_mem_cons.mpr ⟨hi hv, yields_moreItems hi _ hvs⟩

theorem yields_member : Yields (fun m => m.2.Distinct) (member item) := by
  intro cs x rest h
  unfold member at h
  obtain ⟨⟨name, after⟩, _, h⟩ := bind_eq_ok_iff.mp h
  dsimp only at h
  split at h
  · cases h
  · obtain ⟨⟨v, after'⟩, hv, h⟩ := bind_eq_ok_iff.mp h
    cases h
    exact hi hv
  · cases h

theorem yields_moreMembers (steps : Nat) :
    Yields (fun ms => ∀ m ∈ ms, m.2.Distinct) (moreMembers item steps) := by
  induction steps with
  | zero => intro cs x rest h; cases h
  | succ steps ih =>
    intro cs x rest h
    unfold moreMembers at h
    split at h
    · cases h
    · cases h
      exact List.forall_mem_nil _
    · split at h
      · cases h
      · obtain ⟨⟨m, after⟩, hm, h⟩ := bind_eq_ok_iff.mp h
        obtain ⟨⟨ms, after'⟩, hms, h⟩ := bind_eq_ok_iff.mp h
        cases h
        exact List.forall_mem_cons.mpr ⟨yields_member hi hm, ih hms⟩
      · cases h
      · cases h
    · cases h

theorem yields_members : Yields (fun ms => ∀ m ∈ ms, m.2.Distinct) (members item) := by
  intro cs x rest h
  unfold members at h
  split at h
  · cases h
  · cases h
    exact List.forall_mem_nil _
  · obtain ⟨⟨m, after⟩, hm, h⟩ := bind_eq_ok_iff.mp h
    obtain ⟨⟨ms, after'⟩, hms, h⟩ := bind_eq_ok_iff.mp h
    cases h
    exact List.forall_mem_cons.mpr ⟨yields_member hi hm, yields_moreMembers hi _ hms⟩
  · cases h

end

/-- An object built by insertion holds no name twice. -/
theorem distinct_insertAll {members : Entries Value} (h : ∀ m ∈ members, m.2.Distinct) :
    Value.Distinct (.object (Entries.insertAll [] members)) := by
  refine .object (Entries.nodup_keys_insertAll (by exact List.nodup_nil) members) fun m hm => ?_
  rcases Entries.mem_of_mem_insertAll hm with hm | hm
  · cases hm
  · exact h m hm

theorem yields_valueWith {item : Option (Reader Value)}
    (hi : ∀ read ∈ item, Yields Value.Distinct read) : Yields Value.Distinct (valueWith item) := by
  intro cs x rest h
  unfold valueWith at h
  split at h
  · cases h
  · obtain ⟨after, _, h⟩ := bind_eq_ok_iff.mp h
    cases h
    exact .null
  · obtain ⟨after, _, h⟩ := bind_eq_ok_iff.mp h
    cases h
    exact .bool true
  · obtain ⟨after, _, h⟩ := bind_eq_ok_iff.mp h
    cases h
    exact .bool false
  · obtain ⟨n, rfl⟩ := number_eq_ok h
    exact .number n
  · obtain ⟨⟨s, after⟩, _, h⟩ := bind_eq_ok_iff.mp h
    cases h
    exact .string s
  · split at h
    · cases h
    · next read =>
      obtain ⟨⟨vs, after⟩, hvs, h⟩ := bind_eq_ok_iff.mp h
      cases h
      exact .array (yields_items (hi read rfl) hvs)
  · split at h
    · cases h
    · next read =>
      obtain ⟨⟨ms, after⟩, hms, h⟩ := bind_eq_ok_iff.mp h
      cases h
      exact distinct_insertAll (yields_members (hi read rfl) hms)
  · split at h
    · obtain ⟨n, rfl⟩ := number_eq_ok h
      exact .number n
    · cases h

theorem yields_value (depth : Nat) : Yields Value.Distinct (value depth) := by
  induction depth with
  | zero => exact yields_valueWith nofun
  | succ depth ih =>
    refine yields_valueWith fun read hr => ?_
    cases hr
    exact ih

/-- Every value read from a text has distinct names. -/
theorem distinct_of_parse {text : String} {v : Value} (h : parse text = .ok v) : v.Distinct := by
  obtain ⟨⟨v', rest⟩, hv, h⟩ := bind_eq_ok_iff.mp h
  dsimp only at h
  split at h
  · cases h
    exact yields_value maxDepth hv
  · cases h

end SearchCompiler.Json
