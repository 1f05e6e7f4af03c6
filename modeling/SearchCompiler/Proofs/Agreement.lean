import Mathlib.Data.List.Forall2
import SearchCompiler.Proofs.Stages

/-!
What compiling takes from a level of options: the base query of its text, its filters, the boosts
that are present and the score function. Options whose levels agree in these compile alike, whatever
else sets the levels apart, and even under settings that differ.
-/

namespace SearchCompiler

/-- Levels, each under settings of its own, that agree in all that compiling takes from them. -/
structure Level.Agrees (settings settings' : Settings) (level level' : Level) : Prop where
  base : level.2.base settings level.1 = level'.2.base settings' level'.1
  filters : level.2.filters = level'.2.filters
  boosts : level.2.boosts = level'.2.boosts
  score : level.2.scoreFunction? settings = level'.2.scoreFunction? settings'

theorem levels_ne_nil (text : String) (o : SearchOptions) : o.levels text ≠ [] := by
  cases o with
  | plain c => exact List.cons_ne_nil _ _
  | including c included inner => exact List.cons_ne_nil _ _

section Agreement

variable {settings settings' : Settings}

theorem boost_eq_of_agrees (hp : settings.boostPolicy = settings'.boostPolicy)
    {level level' : Level} (h : level.Agrees settings settings' level') (query : QueryNode) :
    level.2.boost settings query = level'.2.boost settings' query := by
  rw [boost_eq, boost_eq, h.boosts, h.score, hp]

/-- Options whose levels agree one by one compile to the same query, or fail with the same error. -/
theorem compile_eq_of_agrees (hp : settings.boostPolicy = settings'.boostPolicy)
    {text text' : String} {o o' : SearchOptions}
    (h : List.Forall₂ (Level.Agrees settings settings') (o.levels text) (o'.levels text')) :
    o.compile settings text = o'.compile settings' text' := by
  induction o generalizing text o' text' with
  | plain c =>
    cases o' with
    | plain c' =>
      obtain ⟨hlevel, _⟩ := List.forall₂_cons.mp h
      have hbase : c.base settings text = c'.base settings' text' := hlevel.base
      have hfilters : c.filters = c'.filters := hlevel.filters
      have hboost := boost_eq_of_agrees hp hlevel
      simp only [compile_plain, hbase, hfilters, hboost]
    | including c' included' inner' =>
      obtain ⟨_, hinner⟩ := List.forall₂_cons.mp h
      exact absurd (List.forall₂_nil_left_iff.mp hinner) (levels_ne_nil included' inner')
  | including c included inner ih =>
    cases o' with
    | plain c' =>
      obtain ⟨_, hinner⟩ := List.forall₂_cons.mp h
      exact absurd (List.forall₂_nil_right_iff.mp hinner) (levels_ne_nil included inner)
    | including c' included' inner' =>
      obtain ⟨hlevel, hinner⟩ := List.forall₂_cons.mp h
      have hbase : c.base settings text = c'.base settings' text' := hlevel.base
      have hfilters : c.filters = c'.filters := hlevel.filters
      have hboost := boost_eq_of_agrees hp hlevel
      simp only [compile_including, hbase, hfilters, hboost, ih hinner]

end Agreement

end SearchCompiler
