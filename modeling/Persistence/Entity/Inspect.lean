import Persistence.Entity.Basic
import Persistence.Value.Inspect

/-!
# Dumps of delete values

A fixed value is dumped with its structure; of a producer nothing is shown.
-/

namespace Persistence

/-- The dump of a delete value. -/
def DeleteValue.inspect : DeleteValue → String
  | literal v => Inspect.tagged "Literal" v.inspect
  | producer _ => "Producer(..)"

end Persistence
