import SearchCompiler.Proofs.Stages

/-!
Applying the first boost that is present, seen as refusing several: the boosts that take no part are
removed first, and then there is nothing to refuse. The two policies thus differ in what they accept
and never in what they compile to.
-/

namespace SearchCompiler

/-- A level with none but the boosting option that takes precedence. -/
def Clauses.strip (c : Clauses) : Clauses :=
  match c.boostBy, c.boostFunction with
  | some _, _ => { c with boostFunction := none, boostWhere := none }
  | none, some _ => { c with boostWhere := none }
  -- Only the conditions are left, and with no other boost they are kept as they are.
  | none, none => c

/-- Options with every level stripped. -/
def SearchOptions.strip : SearchOptions → SearchOptions
  | .plain c => .plain c.strip
  | .including c text inner => .including c.strip text inner.strip

/-- Settings under another policy for several boosts. -/
def Settings.withPolicy (settings : Settings) (policy : BoostPolicy) : Settings :=
  { settings with boostPolicy := policy }

theorem strip_base (settings : Settings) (text : String) (c : Clauses) :
    c.strip.base settings text = c.base settings text := by
  unfold Clauses.strip
  split <;> rfl

theorem strip_filters (c : Clauses) : c.strip.filters = c.filters := by
  unfold Clauses.strip
  split <;> rfl

theorem strip_scoreFunction? (settings : Settings) (c : Clauses) :
    c.strip.scoreFunction? settings = c.scoreFunction? settings := by
  unfold Clauses.strip
  split
  · next hb => simp [Clauses.scoreFunction?, hb]
  · next hb hf => simp [Clauses.scoreFunction?, hb, hf]
  · rfl

theorem length_boosts_strip (c : Clauses) : c.strip.boosts.length ≤ 1 := by
  have hnone : (leaves? none).isEmpty = true := by simp [leaves?, leaves, leavesUnder]
  unfold Clauses.strip
  split
  · next hb => simp [Clauses.boosts, hb, hnone]
  · next hb hf => simp [Clauses.boosts, hb, hf, hnone]
  · next hb hf =>
    by_cases he : leaves? c.boostWhere = [] <;> simp [Clauses.boosts, hb, hf, he]

theorem boost_firstMatch (settings : Settings) (c : Clauses) (query : QueryNode) :
    c.boost (settings.withPolicy .firstMatch) query =
      c.strip.boost (settings.withPolicy .reject) query := by
  have hl := length_boosts_strip c
  have hs : c.strip.scoreFunction? (settings.withPolicy .reject) =
      c.scoreFunction? (settings.withPolicy .firstMatch) :=
    strip_scoreFunction? (settings.withPolicy .reject) c
  -- Neither side refuses: one policy never does, and a stripped level has one boost at most.
  rw [boost_eq, boost_eq, if_neg (fun h => nomatch h.2), if_neg (fun h => by omega), hs]

theorem boost_firstMatch_of_reject {settings : Settings} {c : Clauses} {query q : QueryNode}
    (h : c.boost (settings.withPolicy .reject) query = .ok q) :
    c.boost (settings.withPolicy .firstMatch) query = .ok q := by
  rw [boost_eq] at h
  split at h
  · cases h
  · rw [boost_eq, if_neg (fun h => nomatch h.2)]
    exact h

theorem compile_firstMatch_eq (settings : Settings) (text : String) (o : SearchOptions) :
    o.compile (settings.withPolicy .firstMatch) text =
      o.strip.compile (settings.withPolicy .reject) text := by
  have hb (c : Clauses) (text : String) : c.strip.base (settings.withPolicy .reject) text =
      c.base (settings.withPolicy .firstMatch) text := strip_base _ text c
  induction o generalizing text with
  | plain c =>
    simp only [SearchOptions.strip, SearchOptions.compile, hb, strip_filters, boost_firstMatch]
  | including c included inner ih =>
    simp only [SearchOptions.strip, SearchOptions.compile, hb, strip_filters, boost_firstMatch,
      ih]

theorem compile_firstMatch_of_reject {settings : Settings} {text : String} {o : SearchOptions}
    {q : QueryNode} (h : o.compile (settings.withPolicy .reject) text = .ok q) :
    o.compile (settings.withPolicy .firstMatch) text = .ok q := by
  induction o generalizing text q with
  | plain c =>
    obtain ⟨base, hb, hq⟩ := bind_eq_ok_iff.mp h
    exact bind_eq_ok_iff.mpr ⟨base, hb, boost_firstMatch_of_reject hq⟩
  | including c included inner ih =>
    obtain ⟨base, hb, h⟩ := bind_eq_ok_iff.mp h
    obtain ⟨nested, hn, hq⟩ := bind_eq_ok_iff.mp h
    exact bind_eq_ok_iff.mpr ⟨base, hb, bind_eq_ok_iff.mpr
      ⟨nested, ih hn, boost_firstMatch_of_reject hq⟩⟩

/-- Applying the first boost is refusing several once the boosts that take no part are gone, down to
the error, and where several are not refused both policies give one query. -/
theorem firstMatch_is_reject_stripped (settings : Settings) (text : String) (o : SearchOptions) :
    o.compile { settings with boostPolicy := .firstMatch } text =
        o.strip.compile { settings with boostPolicy := .reject } text ∧
      ∀ q, o.compile { settings with boostPolicy := .reject } text = .ok q →
        o.compile { settings with boostPolicy := .firstMatch } text = .ok q :=
  ⟨compile_firstMatch_eq settings text o, fun _ h => compile_firstMatch_of_reject h⟩

/-- Where the boosts that take no part are conditions without a leaf nothing is refused. A field and
a script are refused together, and the field alone is what the first match applies. -/
theorem firstMatch_is_reject_stripped_tea :
    let o : SearchOptions :=
      .including { boostBy := some "sales", boostWhere := some [("none", .tree [])] } "green"
        (.plain { boostFunction := some { script := "score" } })
    let q : QueryNode :=
      .functionScore
        (.filtered (.single "_all" "tea" [])
          (.query (.functionScore (.single "_all" "green" []) (.script "score" none))))
        (.fieldValue "sales" "ln2p")
    let p : SearchOptions :=
      .plain { boostBy := some "sales", boostFunction := some { script := "score" } }
    o.compile { boostPolicy := .reject } "tea" = .ok q ∧
      o.compile { boostPolicy := .firstMatch } "tea" = .ok q ∧
      p.compile { boostPolicy := .reject } "tea" =
        .error (.ambiguousBoost [.boostBy, .boostFunction]) ∧
      p.strip = .plain { boostBy := some "sales" } ∧
      p.compile { boostPolicy := .firstMatch } "tea" =
        .ok (.functionScore (.single "_all" "tea" []) (.fieldValue "sales" "ln2p")) := by
  intro o q p
  have h : o.compile { boostPolicy := .reject } "tea" = .ok q := by cbv
  have hrefused : p.compile { boostPolicy := .reject } "tea" =
      .error (.ambiguousBoost [.boostBy, .boostFunction]) := by cbv
  have hstrip : p.strip = .plain { boostBy := some "sales" } := rfl
  refine ⟨h, (firstMatch_is_reject_stripped {} "tea" o).2 q h, hrefused, hstrip, ?_⟩
  rw [(firstMatch_is_reject_stripped {} "tea" p).1, hstrip]
  cbv

end SearchCompiler
