import SearchCompiler.Text.Lines

/-!
Templates of configuration files. A template is a valid file with every default written out; what is
given to the user is the template with all its settings commented out, so that it sets nothing until
some of them are uncommented.
-/

namespace SearchCompiler

/-- Comments out a line, unless it is empty or a comment already. -/
def commentLine (line : String) : String :=
  if line.isEmpty ∨ line.startsWith "#" then line else "# " ++ line

/-- Comments out every line of a text. Every line of the result ends in a line feed. -/
def commentOut (text : String) : String :=
  String.join ((Text.lines text).map fun line => commentLine line ++ "\n")

def textOfLines (lines : List String) : String :=
  String.join (lines.map fun line => line ++ "\n")

def projectTemplate : String :=
  textOfLines [
    "# sift project configuration.",
    "#",
    "# Settings here override ~/.sift.toml. Uncomment what you need.",
    "",
    "# Stop looking for parent and global configs.",
    "root = false",
    "",
    "[compile]",
    "# Field matched when a query has no `on` option.",
    "catch_all_field = \"_all\"",
    "# Modifier applied by `boost_by`: none, log, log1p, log2p, ln, ln1p, ln2p,",
    "# square, sqrt, reciprocal.",
    "boost_modifier = \"ln2p\"",
    "# Score multiplier for documents matched by `boost_where`.",
    "boost_factor = 1000",
    "# With several boost options: \"first-match\" applies boost_by, then",
    "# boost_function, then boost_where; \"reject\" refuses to compile.",
    "boost_precedence = \"first-match\"",
    "",
    "[output]",
    "pretty = true",
    "color = true"]

def userTemplate : String :=
  textOfLines [
    "# sift global configuration (~/.sift.toml).",
    "#",
    "# Project .sift.toml files override these values.",
    "",
    "[compile]",
    "catch_all_field = \"_all\"",
    "boost_modifier = \"ln2p\"",
    "boost_factor = 1000",
    "boost_precedence = \"first-match\"",
    "",
    "[output]",
    "pretty = true",
    "color = true"]

/-- The template for a project, commented out. -/
def localTemplate : String :=
  commentOut projectTemplate

/-- The template for a user, commented out. -/
def globalTemplate : String :=
  commentOut userTemplate

end SearchCompiler
