import RouteBinder.Text.Chars

/-!
# RouteBinder.Diagnostics

**Loggers and their levels.** Every part of the program has a logger below one root, and the root
decides which messages are shown. Its level is named by a variable of the environment; a name that
is not the name of a level counts as `warning`.
-/

namespace RouteBinder.Diagnostics

open Text

/-- The name of the logger above all others. -/
def rootLogger : String := "routesdk"

/-- The full name of a logger: every logger is the root or below it. -/
def loggerName (name : String) : String :=
  let below := rootLogger ++ "."
  if name == rootLogger || below.toList.isPrefixOf name.toList then name else below ++ name

/-- The weights of the levels. -/
def levels : List (String × Nat) :=
  [("CRITICAL", 50), ("FATAL", 50), ("ERROR", 40), ("WARNING", 30), ("WARN", 30), ("INFO", 20),
    ("DEBUG", 10), ("NOTSET", 0)]

def warningLevel : Nat := 30
def debugLevel : Nat := 10

/-- The level that a variable of the environment asks for. -/
def levelOfName (name : String) : Nat := (levels.lookup (upper name)).getD warningLevel

/-- The level of the root logger: diagnostic output shows everything, and otherwise the environment
decides. -/
def rootLevel (environmentLevel : Option String) (debug : Bool) : Nat :=
  if debug then debugLevel else levelOfName (environmentLevel.getD "WARNING")

end RouteBinder.Diagnostics
