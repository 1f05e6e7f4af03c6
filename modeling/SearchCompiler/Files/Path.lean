/-!
Paths as they are written. A path is cut at its slashes and keeps every piece, so its text is never
lost; pieces that are empty or a single dot name nothing and are skipped when names are compared,
when the parent is taken and when the path is looked up.
-/

namespace SearchCompiler

inductive Lead where
  -- With a slash.
  | root
  -- With a dot that stands for the current directory.
  | here
  -- With a name, or not at all.
  | none
deriving DecidableEq, Inhabited

/-- A path: how it begins, and the pieces between slashes after that. -/
structure FilePath where
  lead : Lead
  pieces : List String
deriving DecidableEq, Inhabited

/-- The pieces between slashes; there is always at least one. -/
def splitAtSlashes : List Char → List (List Char)
  | [] => [[]]
  | '/' :: rest => [] :: splitAtSlashes rest
  | c :: rest =>
    match splitAtSlashes rest with
    | [] => [[c]]
    | piece :: pieces => (c :: piece) :: pieces

def isIdle (piece : String) : Bool :=
  piece == "" || piece == "."

def trimEnd (pieces : List String) : List String :=
  (pieces.reverse.dropWhile isIdle).reverse

/-- The pieces left after a number of names and the idle pieces around them. -/
def dropNames : Nat → List String → List String
  | _, [] => []
  | n, piece :: rest =>
    if isIdle piece then dropNames n rest
    else
      match n with
      | 0 => piece :: rest
      | n + 1 => dropNames n rest

namespace FilePath

/-- The pieces of a text, none for the empty text. -/
def piecesOf (cs : List Char) : List String :=
  if cs.isEmpty then [] else (splitAtSlashes cs).map String.ofList

def ofText (text : String) : FilePath :=
  match text.toList with
  | '/' :: body => ⟨.root, piecesOf body⟩
  | ['.'] => ⟨.here, []⟩
  | '.' :: '/' :: body => ⟨.here, piecesOf ('/' :: body)⟩
  | cs => ⟨.none, piecesOf cs⟩

def text (p : FilePath) : String :=
  (match p.lead with
    | .root => "/"
    | .here => "."
    | .none => "") ++ "/".intercalate p.pieces

def names (p : FilePath) : List String :=
  p.pieces.filter fun piece => !isIdle piece

/-- Whether two paths are written with the same names. -/
def same (p q : FilePath) : Bool :=
  p.lead = q.lead && p.names = q.names

/-- The path of the directory that holds a path; none for the root and the empty path. -/
def parent? (p : FilePath) : Option FilePath :=
  match (trimEnd p.pieces).reverse with
  | _ :: rest => some ⟨p.lead, trimEnd rest.reverse⟩
  | [] => if p.lead = .here then some ⟨.none, []⟩ else Option.none

def join (dir : FilePath) (name : String) : FilePath :=
  match dir.pieces.getLast? with
  | Option.none => if dir.lead = .here then ⟨.here, ["", name]⟩ else ⟨dir.lead, [name]⟩
  | some "" => ⟨dir.lead, dir.pieces.dropLast ++ [name]⟩
  | some _ => ⟨dir.lead, dir.pieces ++ [name]⟩

/-- The path that is meant when a path is used inside a directory. -/
def inside (dir p : FilePath) : FilePath :=
  if p.lead = .root then p else ⟨dir.lead, dir.pieces ++ p.pieces⟩

/-- The path as seen from a directory above it, or as it is when the directory is not above it. -/
def relativeTo (base p : FilePath) : FilePath :=
  if p.lead = base.lead ∧ base.names <+: p.names then
    ⟨.none, dropNames base.names.length p.pieces⟩
  else p

def size (p : FilePath) : Nat :=
  p.pieces.length + if p.lead = .here then 1 else 0

theorem length_trimEnd_le (pieces : List String) : (trimEnd pieces).length ≤ pieces.length := by
  have h := (List.dropWhile_suffix (l := pieces.reverse) isIdle).length_le
  simpa [trimEnd] using h

theorem size_parent?_lt {p q : FilePath} (h : p.parent? = some q) : q.size < p.size := by
  unfold parent? at h
  split at h
  · rename_i last rest heq
    have hp := length_trimEnd_le p.pieces
    have hl : (trimEnd p.pieces).length = rest.length + 1 := by
      have := congrArg List.length heq
      simpa using this
    have hr := length_trimEnd_le rest.reverse
    have hq : q = ⟨p.lead, trimEnd rest.reverse⟩ := (Option.some.inj h).symm
    subst hq
    simp only [size, List.length_reverse] at *
    omega
  · split at h
    · rename_i hlead
      have hq : q = ⟨.none, []⟩ := (Option.some.inj h).symm
      subst hq
      simp [size, hlead]
    · simp at h

/-- A path and the directories above it, nearest first. -/
def ancestors (p : FilePath) : List FilePath :=
  match h : p.parent? with
  | Option.none => [p]
  | some q =>
    have := size_parent?_lt h
    p :: q.ancestors
termination_by p.size

end FilePath

end SearchCompiler
