/-!
# Version

What is known about the build of the program.
-/

namespace Perimeter

/-- The marks of a build. -/
structure Version where
  number : String := "dev"
  commit : String := "unknown"
  date : String := "unknown"

/-- The marks of this build. -/
def Version.current : Version := {}

/-- A version in one line. -/
def Version.text (v : Version) : String := s!"{v.number} (commit {v.commit}, built {v.date})"

end Perimeter
