import SearchCompiler.Config.Discovery

/-!
The directories above a path. Going up takes a name off or, where no name is left, the dot that a
path begins with. A path is thus never the same as one further up, and neither are the files of one
name in the two.
-/

namespace SearchCompiler

theorem filter_dropWhile_isIdle (pieces : List String) :
    (pieces.dropWhile isIdle).filter (fun piece => !isIdle piece) =
      pieces.filter fun piece => !isIdle piece := by
  induction pieces with
  | nil => rfl
  | cons piece rest ih =>
    by_cases h : isIdle piece = true
    · rw [List.dropWhile_cons_of_pos h, ih, List.filter_cons_of_neg (by simp [h])]
    · rw [List.dropWhile_cons_of_neg h]

theorem filter_trimEnd (pieces : List String) :
    (trimEnd pieces).filter (fun piece => !isIdle piece) =
      pieces.filter fun piece => !isIdle piece := by
  rw [trimEnd, List.filter_reverse, filter_dropWhile_isIdle, List.filter_reverse,
    List.reverse_reverse]

theorem last_of_trimEnd {pieces front : List String} {last : String}
    (h : trimEnd pieces = front ++ [last]) : isIdle last = false := by
  have hr : pieces.reverse.dropWhile isIdle = last :: front.reverse := by
    have hr := congrArg List.reverse h
    rwa [trimEnd, List.reverse_reverse, List.reverse_append, List.reverse_singleton] at hr
  have hnot := List.head?_dropWhile_not isIdle pieces.reverse
  rw [hr] at hnot
  simpa using hnot

namespace FilePath

/-- How often one can go up: once for every name and once for a dot at the beginning. -/
def height (p : FilePath) : Nat :=
  p.names.length + if p.lead = .here then 1 else 0

theorem same_iff {p q : FilePath} : p.same q = true ↔ p.lead = q.lead ∧ p.names = q.names := by
  simp [same]

theorem same_comm (p q : FilePath) : p.same q = q.same p := by
  rw [Bool.eq_iff_iff, same_iff, same_iff, eq_comm, @eq_comm _ p.names]

theorem same_trans {p q r : FilePath} (hpq : p.same q = true) (hqr : q.same r = true) :
    p.same r = true := by
  rw [same_iff] at hpq hqr ⊢
  exact ⟨hpq.1.trans hqr.1, hpq.2.trans hqr.2⟩

theorem height_eq_of_same {p q : FilePath} (h : p.same q = true) : p.height = q.height := by
  obtain ⟨hl, hn⟩ := same_iff.mp h
  rw [height, height, hl, hn]

theorem names_of_idle {p : FilePath} (h : (trimEnd p.pieces).reverse = []) : p.names = [] := by
  rw [names, ← filter_trimEnd, List.reverse_eq_nil_iff.mp h]
  rfl

/-- Going up takes off the last name, or the dot at the beginning if there is no name. -/
theorem parent?_cases {p q : FilePath} (h : p.parent? = some q) :
    (q.lead = p.lead ∧ ∃ last, p.names = q.names ++ [last]) ∨
      (p.lead = .here ∧ p.names = [] ∧ q = ⟨.none, []⟩) := by
  unfold parent? at h
  split at h
  · next last rest heq =>
    cases h
    have htrim : trimEnd p.pieces = rest.reverse ++ [last] := by
      rw [← List.reverse_cons, ← heq, List.reverse_reverse]
    have hlast : isIdle last = false := last_of_trimEnd htrim
    refine .inl ⟨rfl, last, ?_⟩
    rw [names, names, filter_trimEnd, ← filter_trimEnd p.pieces, htrim, List.filter_append]
    simp [hlast]
  · next heq =>
    split at h
    · next hlead =>
      cases h
      exact .inr ⟨hlead, names_of_idle heq, rfl⟩
    · cases h

theorem names_of_top {p : FilePath} (h : p.parent? = none) : p.names = [] := by
  unfold parent? at h
  split at h
  · cases h
  · next heq => exact names_of_idle heq

theorem height_parent?_lt {p q : FilePath} (h : p.parent? = some q) : q.height < p.height := by
  rcases parent?_cases h with ⟨hlead, last, hnames⟩ | ⟨hlead, hnames, rfl⟩
  · simp only [height, hlead, hnames, List.length_append, List.length_singleton]
    omega
  · simp [height, hlead, names]

theorem ancestors_of_parent? {p q : FilePath} (h : p.parent? = some q) :
    p.ancestors = p :: q.ancestors := by
  rw [ancestors]
  split
  · next hn => rw [h] at hn; cases hn
  · next q' hq =>
    rw [h] at hq
    cases hq
    rfl

theorem ancestors_of_top {p : FilePath} (h : p.parent? = none) : p.ancestors = [p] := by
  rw [ancestors]
  split
  · rfl
  · next q' hq => rw [h] at hq; cases hq

theorem height_le_of_mem_ancestors {p q : FilePath} (h : q ∈ p.ancestors) :
    q.height ≤ p.height := by
  induction p using ancestors.induct with
  | case1 p hp =>
    rw [ancestors_of_top hp] at h
    exact Nat.le_of_eq (congrArg height (List.mem_singleton.mp h))
  | case2 p parent hp _ ih =>
    rw [ancestors_of_parent? hp] at h
    rcases List.mem_cons.mp h with rfl | h
    · exact Nat.le_refl _
    · have hlt := height_parent?_lt hp
      have hle := ih h
      omega

/-- The directories above a path come in falling height. -/
theorem ancestors_pairwise (p : FilePath) :
    p.ancestors.Pairwise fun nearer further => further.height < nearer.height := by
  induction p using ancestors.induct with
  | case1 p hp =>
    rw [ancestors_of_top hp]
    exact List.pairwise_singleton _ _
  | case2 p parent hp _ ih =>
    rw [ancestors_of_parent? hp]
    refine List.pairwise_cons.mpr ⟨fun q hq => ?_, ih⟩
    have hlt := height_parent?_lt hp
    have hle := height_le_of_mem_ancestors hq
    omega

/-- A file of a directory has the name after pieces with the names of the directory. -/
theorem exists_front_join (dir : FilePath) (name : String) :
    ∃ front, dir.join name = ⟨dir.lead, front ++ [name]⟩ ∧
      front.filter (fun piece => !isIdle piece) = dir.names := by
  have hempty : isIdle "" = true := by decide
  unfold join names
  split
  · next hnone =>
    have hnil : dir.pieces = [] := List.getLast?_eq_none_iff.mp hnone
    split
    · next hlead => exact ⟨[""], by rw [hlead]; rfl, by simp [hnil, hempty]⟩
    · exact ⟨[], rfl, by simp [hnil]⟩
  · next hlast =>
    -- The piece after a slash at the end is empty and gives way to the name.
    obtain ⟨front, hfront⟩ := List.getLast?_eq_some_iff.mp hlast
    exact ⟨dir.pieces.dropLast, rfl, by simp [hfront, hempty]⟩
  · exact ⟨dir.pieces, rfl, rfl⟩

theorem lead_join (dir : FilePath) (name : String) : (dir.join name).lead = dir.lead := by
  obtain ⟨_, hjoin, _⟩ := exists_front_join dir name
  rw [hjoin]

theorem names_join {name : String} (hname : isIdle name = false) (dir : FilePath) :
    (dir.join name).names = dir.names ++ [name] := by
  obtain ⟨front, hjoin, hfront⟩ := exists_front_join dir name
  rw [hjoin, names, List.filter_append, hfront]
  simp [hname]

/-- A file stands in the directory that it was joined to, as far as its names go. -/
theorem exists_parent?_join {name : String} (hname : isIdle name = false) (dir : FilePath) :
    ∃ q, (dir.join name).parent? = some q ∧ q.same dir = true := by
  obtain ⟨front, hjoin, hfront⟩ := exists_front_join dir name
  have htrim : (trimEnd (front ++ [name])).reverse = name :: front.reverse := by
    rw [trimEnd, List.reverse_reverse, List.reverse_append, List.reverse_singleton,
      List.singleton_append, List.dropWhile_cons_of_neg (by simp [hname])]
  refine ⟨⟨dir.lead, trimEnd front⟩, ?_, same_iff.mpr ⟨rfl, ?_⟩⟩
  · rw [hjoin, parent?, htrim]
    simp
  · rw [names, filter_trimEnd, hfront]

/-- Files of one name are the same exactly if they stand in the same directory. -/
theorem same_join_iff {name : String} (hname : isIdle name = false) {p q : FilePath} :
    (p.join name).same (q.join name) = true ↔ p.same q = true := by
  rw [same_iff, same_iff, lead_join, lead_join, names_join hname, names_join hname,
    List.append_left_inj]

end FilePath

theorem configName_not_idle : isIdle configName = false := by
  decide

end SearchCompiler
