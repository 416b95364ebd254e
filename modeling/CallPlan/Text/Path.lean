/-!
# Relative paths

Paths of files with a slash between their components.
-/

namespace CallPlan.Text.Path

/-- The path of `inner` below `outer`. A path that starts with a slash is absolute and replaces what
is in front of it. -/
def join (outer inner : String) : String :=
  if inner.startsWith "/" then inner
  else if outer.isEmpty || outer.endsWith "/" then outer ++ inner
  else outer ++ "/" ++ inner

end CallPlan.Text.Path
